import Kvnet.Accounting

/-!
# Device lifecycle and sessions

io_dev_open allocates and registers a net device, io_dev_close unregisters and
frees it. Three flags of vnet say whether that has happened; a session is the
time between a successful open and its close. Calls run one after another.
-/

namespace Kvnet

/-- What was done to one net device. -/
def World.history (w : World) (dev : Addr) : List NetdevEvent :=
  w.kernel.netdevs.filter fun e => e.dev = dev

/-- Never allocated, or freed once and unregistered just when it had been registered. -/
def Settled (dev : Addr) (history : List NetdevEvent) : Prop :=
  history = [] ∨ history = [.alloc dev, .free dev] ∨
    history = [.alloc dev, .register dev, .unregister dev, .free dev]

/-- No file is open. -/
structure Idle (w : World) : Prop where
  opened : w.vnet.ioDev.opened = 0
  added : w.vnet.netDev.added = 0
  device : w.vnet.netDev.device = NULL
  registered : w.kernel.registered = NULL
  down : w.kernel.up = false
  valid : w.kernel.fresh ≠ NULL
  unborn : ∀ dev, w.kernel.fresh ≤ dev → w.history dev = []
  settled : ∀ dev, Settled dev (w.history dev)

/-- A file is open and its net device registered. -/
structure Serving (w : World) : Prop where
  opened : w.vnet.ioDev.opened = 1
  added : w.vnet.netDev.added = 1
  device : w.vnet.netDev.device ≠ NULL
  registered : w.kernel.registered = w.vnet.netDev.device
  valid : w.kernel.fresh ≠ NULL
  unborn : ∀ dev, w.kernel.fresh ≤ dev → w.history dev = []
  current : w.history w.vnet.netDev.device =
    [.alloc w.vnet.netDev.device, .register w.vnet.netDev.device]
  settled : ∀ dev, dev ≠ w.vnet.netDev.device → Settled dev (w.history dev)

section History

variable {w w' : World} {events : List NetdevEvent} {dev : Addr}

theorem history_own (h : w'.kernel.netdevs = w.kernel.netdevs ++ events)
    (own : ∀ e ∈ events, e.dev = dev) : w'.history dev = w.history dev ++ events := by
  have all : events.filter (fun e => e.dev = dev) = events :=
    List.filter_eq_self.mpr fun e he => by simpa using own e he
  rw [World.history, h, List.filter_append, all]
  rfl

theorem history_other (h : w'.kernel.netdevs = w.kernel.netdevs ++ events)
    (other : ∀ e ∈ events, e.dev ≠ dev) : w'.history dev = w.history dev := by
  have none_own : events.filter (fun e => e.dev = dev) = [] :=
    List.filter_eq_nil_iff.mpr fun e he => by simpa using other e he
  rw [World.history, h, List.filter_append, none_own, List.append_nil]
  rfl

/-- What is done to the device allocated next begins its history. -/
theorem history_born (unborn : ∀ dev, w.kernel.fresh ≤ dev → w.history dev = [])
    (h : w'.kernel.netdevs = w.kernel.netdevs ++ events)
    (own : ∀ e ∈ events, e.dev = w.kernel.fresh) : w'.history w.kernel.fresh = events := by
  rw [history_own h own, unborn _ le_rfl, List.nil_append]

theorem history_unborn (unborn : ∀ dev, w.kernel.fresh ≤ dev → w.history dev = [])
    (h : w'.kernel.netdevs = w.kernel.netdevs ++ events)
    (own : ∀ e ∈ events, e.dev = w.kernel.fresh) (later : w.kernel.fresh + 1 ≤ dev) :
    w'.history dev = [] := by
  have other : ∀ e ∈ events, e.dev ≠ dev := by
    intro e he
    rw [own e he]
    exact Nat.ne_of_lt later
  rw [history_other h other]
  exact unborn dev (Nat.le_of_succ_le later)

end History

theorem withDevice_same {w : World} (h : w.vnet.netDev.device = NULL) : w.withDevice NULL = w := by
  rw [World.withDevice, ← h]

theorem Idle.netDev {w : World} (idle : Idle w) :
    { w.vnet.netDev with added := 0, device := NULL } = w.vnet.netDev := by
  rw [← idle.added, ← idle.device]

/-- alloc_netdev fails. -/
theorem ioDevOpen_unallocated {w : World} (idle : Idle w) (fuel : Nat) (register : Int) :
    ioDevOpen fuel false register w = some (-ENOMEM, w) := by
  have nonzero : -ENOMEM ≠ 0 := by decide
  simp [ioDevOpen, netDevAdd, allocNetdev, netDevRemove, idle.opened, idle.device, nonzero,
    withDevice_same idle.device]

/-- register_netdev fails and the device is freed again. -/
theorem ioDevOpen_unregistered {w : World} (idle : Idle w) (fuel : Nat) {register : Int}
    (fails : register ≠ 0) :
    ioDevOpen fuel true register w = some (register, { w with kernel := { w.kernel with
      netdevs := w.kernel.netdevs ++ [.alloc w.kernel.fresh, .free w.kernel.fresh],
      fresh := w.kernel.fresh + 1 } }) := by
  simp [ioDevOpen, netDevAdd, allocNetdev, registerNetdev, netDevRemove, freeNetdev,
    World.withDevice, World.withAdded, idle.opened, idle.valid, idle.added, fails]
  exact congrArg (fun netDev => { w.vnet with netDev := netDev }) idle.netDev

theorem ioDevOpen_registered {w : World} (idle : Idle w) (fuel : Nat) :
    ioDevOpen fuel true 0 w = some (0, { w with
      vnet := { w.vnet with
        ioDev := { w.vnet.ioDev with opened := 1, canceled := 0 }
        netDev := { w.vnet.netDev with added := 1, device := w.kernel.fresh } }
      kernel := { w.kernel with
        netdevs := w.kernel.netdevs ++ [.alloc w.kernel.fresh, .register w.kernel.fresh]
        fresh := w.kernel.fresh + 1
        registered := w.kernel.fresh
        up := false } }) := by
  simp [ioDevOpen, netDevAdd, allocNetdev, registerNetdev, World.withDevice, World.withAdded,
    World.withIoDev, idle.opened, idle.valid]

/-- What io_dev_open does when no file is open. -/
structure Opened (w w' : World) (ret : Int) : Prop where
  mem : w'.mem = w.mem
  queue : w'.queue = w.queue
  stats : w'.stats = w.stats
  down : w'.kernel.up = false
  outcome : ret ≠ 0 ∧ w'.vnet = w.vnet ∧ Idle w' ∨ ret = 0 ∧ Serving w'

theorem ioDevOpen_idle {w : World} (idle : Idle w) (fuel : Nat) (alloc : Bool) (register : Int) :
    ∃ ret w', ioDevOpen fuel alloc register w = some (ret, w') ∧ Opened w w' ret := by
  cases alloc with
  | false =>
    refine ⟨-ENOMEM, w, ioDevOpen_unallocated idle fuel register, rfl, rfl, rfl, idle.down, ?_⟩
    exact Or.inl ⟨by decide, rfl, idle⟩
  | true =>
    by_cases fails : register ≠ 0
    · refine ⟨register, _, ioDevOpen_unregistered idle fuel fails, rfl, rfl, rfl, idle.down, ?_⟩
      refine Or.inl ⟨fails, rfl, idle.opened, idle.added, idle.device, idle.registered, idle.down,
        Nat.succ_ne_zero _, fun dev later => ?_, fun dev => ?_⟩
      · exact history_unborn idle.unborn rfl (by simp [NetdevEvent.dev]) later
      · by_cases own : w.kernel.fresh = dev
        · subst own
          rw [history_born idle.unborn rfl (by simp [NetdevEvent.dev])]
          exact Or.inr (Or.inl rfl)
        · rw [history_other rfl (by simpa [NetdevEvent.dev] using own)]
          exact idle.settled dev
    · obtain rfl : register = 0 := not_not.mp fails
      refine ⟨0, _, ioDevOpen_registered idle fuel, rfl, rfl, rfl, rfl, ?_⟩
      refine Or.inr ⟨rfl, rfl, rfl, idle.valid, rfl, Nat.succ_ne_zero _, fun dev later => ?_, ?_,
        fun dev other => ?_⟩
      · exact history_unborn idle.unborn rfl (by simp [NetdevEvent.dev]) later
      · exact history_born idle.unborn rfl (by simp [NetdevEvent.dev])
      · have own : w.kernel.fresh ≠ dev := fun same => other same.symm
        rw [history_other rfl (by simpa [NetdevEvent.dev] using own)]
        exact idle.settled dev

/-- A second open is refused. -/
theorem ioDevOpen_serving {w : World} (serving : Serving w) (fuel : Nat) (alloc : Bool)
    (register : Int) : ioDevOpen fuel alloc register w = some (-EACCES, w) := by
  simp [ioDevOpen, serving.opened]

/-- What io_dev_close does to the world its unregister_netdev leaves. -/
def World.closeDevice (w : World) : World :=
  { w with
    vnet := { w.vnet with
      ioDev := { w.vnet.ioDev with opened := 0 }
      netDev := { w.vnet.netDev with added := 0, device := NULL } }
    kernel := { w.kernel with
      netdevs := w.kernel.netdevs ++
        [.unregister w.vnet.netDev.device, .free w.vnet.netDev.device]
      registered := NULL
      up := false } }

theorem ioDevClose_up {w v : World} (serving : Serving w) {fuel : Nat} (up : w.kernel.up = true)
    (down : netDevClose fuel w = some v) (device : v.vnet.netDev.device = w.vnet.netDev.device) :
    ioDevClose fuel w = some v.closeDevice := by
  simp [ioDevClose, netDevRemove, unregisterNetdev, freeNetdev, World.withDevice, World.withAdded,
    World.withIoDev, World.closeDevice, serving.device, serving.added, up, down, device]

theorem ioDevClose_down {w : World} (serving : Serving w) (fuel : Nat)
    (down : w.kernel.up = false) : ioDevClose fuel w = some w.closeDevice := by
  simp [ioDevClose, netDevRemove, unregisterNetdev, freeNetdev, World.withDevice, World.withAdded,
    World.withIoDev, World.closeDevice, serving.device, serving.added, down]

theorem closeDevice_idle {w v : World} (serving : Serving w) (kernel : v.kernel = w.kernel)
    (device : v.vnet.netDev.device = w.vnet.netDev.device) : Idle v.closeDevice := by
  have same : ∀ dev, v.history dev = w.history dev := fun dev => by rw [World.history, kernel]; rfl
  have netdevs : v.closeDevice.kernel.netdevs = v.kernel.netdevs ++
      [.unregister w.vnet.netDev.device, .free w.vnet.netDev.device] := by
    rw [World.closeDevice, device]
  refine ⟨rfl, rfl, rfl, rfl, rfl, ?_, fun dev later => ?_, fun dev => ?_⟩
  · change v.kernel.fresh ≠ NULL
    rw [kernel]
    exact serving.valid
  · change v.kernel.fresh ≤ dev at later
    rw [kernel] at later
    have other : w.vnet.netDev.device ≠ dev := by
      rintro rfl
      have none_yet := serving.unborn _ later
      rw [serving.current] at none_yet
      cases none_yet
    rw [history_other netdevs (by simpa [NetdevEvent.dev] using other), same]
    exact serving.unborn dev later
  · by_cases own : w.vnet.netDev.device = dev
    · subst own
      rw [history_own netdevs (by simp [NetdevEvent.dev]), same, serving.current]
      exact Or.inr (Or.inr rfl)
    · rw [history_other netdevs (by simpa [NetdevEvent.dev] using own), same]
      exact serving.settled dev fun h => own h.symm

/-- What io_dev_close leaves. -/
structure Released (w w' : World) (xs : List Addr) : Prop where
  represents : Represents w'.mem w'.queue []
  enabled : w'.queue.enabled = 0
  freed : w'.mem.freed = w.mem.freed ++ xs
  idle : Idle w'

/-- The queue is drained by net_dev_close, or was not filled since it last ran. -/
theorem ioDevClose_serving {w : World} {xs : List Addr} (serving : Serving w)
    (rep : Represents w.mem w.queue xs)
    (drained : w.kernel.up = false → xs = [] ∧ w.queue.enabled = 0) {fuel : Nat}
    (enough : xs.length < fuel) : ∃ w', ioDevClose fuel w = some w' ∧ Released w w' xs := by
  cases up : w.kernel.up with
  | false =>
    obtain ⟨rfl, disabled⟩ := drained up
    exact ⟨_, ioDevClose_down serving fuel up, rep, disabled, (List.append_nil _).symm,
      closeDevice_idle serving rfl rfl⟩
  | true =>
    obtain ⟨v, hv⟩ := netDevClose_returns rep enough
    have closed := netDevClose_closes rep hv
    exact ⟨_, ioDevClose_up serving up hv closed.device, closed.represents, closed.enabled,
      closed.freed, closeDevice_idle serving closed.kernel closed.device⟩

/-- A driver with its history: `files` open files, `session` successful opens so
far, for each buffer the session it was last passed in, and for each packet a
read took the session it was passed in and the session of the read. -/
structure Session where
  tx : TxRun
  files : Nat
  session : Nat
  sentIn : Addr → Nat
  delivered : List (Nat × Nat)

inductive SessionCall where
  | ioDevOpen (alloc : Bool) (register : Int)
  | ioDevClose
  | netDevOpen
  | netDevClose
  | netDevSend (skb : Addr) (txQueueLen : UInt64)
  | ioReadToIovec (iv : List Iovec) (len : Int) (env : ReadEnv)

namespace Session

def withTx (s : Session) (tx : TxRun) : Session := { s with tx := tx }

def withWorld (s : Session) (w : World) : Session := { s with tx := { s.tx with world := w } }

/-- The fuel of every flush. -/
def fuel (s : Session) : Nat := s.tx.passed.length + 1

end Session

/-- IFF_UP as the stack sets it around net_dev_open and net_dev_close. -/
def World.withUp (w : World) (up : Bool) : World := { w with kernel := { w.kernel with up := up } }

/-- The stack opens and closes the interface of a registered device only; a file
is read or closed only while it is open. -/
def sessionStep (arch : Arch) (s : Session) : SessionCall → Option Session
  | .ioDevOpen alloc register =>
    (ioDevOpen s.fuel alloc register s.tx.world).map fun (ret, w) =>
      if ret = 0 then { s.withWorld w with files := s.files + 1, session := s.session + 1 }
      else s.withWorld w
  | .ioDevClose =>
    if s.files = 0 then none
    else (ioDevClose s.fuel s.tx.world).map fun w => { s.withWorld w with files := s.files - 1 }
  | .netDevOpen =>
    if s.tx.world.kernel.registered = NULL then none
    else some (s.withWorld ((netDevOpen s.tx.world).withUp true))
  | .netDevClose =>
    if s.tx.world.kernel.registered = NULL then none
    else (netDevClose s.fuel s.tx.world).map fun w => s.withWorld (w.withUp false)
  | .netDevSend skb txQueueLen =>
    (txStep arch s.tx (.netDevSend skb txQueueLen)).map fun tx =>
      { s.withTx tx with sentIn := Function.update s.sentIn skb s.session }
  | .ioReadToIovec iv len env =>
    if s.files = 0 then none
    else (txStep arch s.tx (.ioReadToIovec iv len env)).map fun tx =>
      let taken := tx.world.mem.freed.drop s.tx.world.mem.freed.length
      { s.withTx tx with delivered := s.delivered ++ taken.map fun x => (s.sentIn x, s.session) }

/-- The driver after vnet_init, with no net device allocated yet. -/
structure SessionFresh (s : Session) : Prop where
  tx : TxFresh s.tx
  opened : s.tx.world.vnet.ioDev.opened = 0
  added : s.tx.world.vnet.netDev.added = 0
  device : s.tx.world.vnet.netDev.device = NULL
  netdevs : s.tx.world.kernel.netdevs = []
  valid : s.tx.world.kernel.fresh ≠ NULL
  registered : s.tx.world.kernel.registered = NULL
  down : s.tx.world.kernel.up = false
  files : s.files = 0
  delivered : s.delivered = []

/-- The lifecycle invariant. The flags follow the open file; a queue holds
packets of the current session only, and none while the interface is down. -/
structure InSession (s : Session) (xs : List Addr) : Prop where
  ledger : TxLedger s.tx xs
  device : s.files = 0 ∧ Idle s.tx.world ∨ s.files = 1 ∧ Serving s.tx.world
  drained : s.tx.world.kernel.up = false → xs = [] ∧ s.tx.world.queue.enabled = 0
  sent : ∀ x ∈ xs, s.sentIn x = s.session
  delivered : ∀ p ∈ s.delivered, p.1 = p.2

theorem fresh_inSession {s : Session} (fresh : SessionFresh s) : InSession s [] := by
  have unborn : ∀ dev, s.tx.world.history dev = [] := by
    intro dev
    rw [World.history, fresh.netdevs]
    rfl
  refine ⟨fresh_ledger fresh.tx, Or.inl ⟨fresh.files, ?_⟩, fun _ => ⟨rfl, ?_⟩, ?_, ?_⟩
  · exact ⟨fresh.opened, fresh.added, fresh.device, fresh.registered, fresh.down, fresh.valid,
      fun dev _ => unborn dev, fun dev => Or.inl (unborn dev)⟩
  · rw [fresh.tx.queue]
    rfl
  · intro x hx
    cases hx
  · intro p hp
    rw [fresh.delivered] at hp
    cases hp

theorem InSession.enough {s : Session} {xs : List Addr} (h : InSession s xs) :
    xs.length < s.fuel := by
  rw [Session.fuel, h.ledger.length]
  omega

theorem InSession.files_le {s : Session} {xs : List Addr} (h : InSession s xs)
    (some_file : s.files ≠ 0) : s.files = 1 ∧ Serving s.tx.world := by
  rcases h.device with ⟨no_file, _⟩ | serving
  · exact False.elim (some_file no_file)
  · exact serving

theorem InSession.serving {s : Session} {xs : List Addr} (h : InSession s xs)
    (registered : s.tx.world.kernel.registered ≠ NULL) : s.files = 1 ∧ Serving s.tx.world := by
  rcases h.device with ⟨_, idle⟩ | serving
  · exact False.elim (registered idle.registered)
  · exact serving

/-- Flags and devices are the same in both worlds; the queue, the counters and
IFF_UP may differ. -/
structure SameDevice (w w' : World) : Prop where
  opened : w'.vnet.ioDev.opened = w.vnet.ioDev.opened
  added : w'.vnet.netDev.added = w.vnet.netDev.added
  device : w'.vnet.netDev.device = w.vnet.netDev.device
  netdevs : w'.kernel.netdevs = w.kernel.netdevs
  fresh : w'.kernel.fresh = w.kernel.fresh
  registered : w'.kernel.registered = w.kernel.registered

namespace SameDevice

variable {w w' : World}

theorem history (h : SameDevice w w') : w'.history = w.history := by
  funext dev
  rw [World.history, h.netdevs]
  rfl

theorem of_frame (h : World.TxFrame w w') : SameDevice w w' := by
  refine ⟨by rw [h.ioDev], h.added, h.device, ?_, ?_, ?_⟩ <;> rw [h.rx]

theorem of_closed {xs : List Addr} (h : Closed w w' xs) : SameDevice w w' := by
  refine ⟨by rw [h.ioDev], h.added, h.device, ?_, ?_, ?_⟩ <;> rw [h.kernel]

theorem serving (h : SameDevice w w') (before : Serving w) : Serving w' where
  opened := h.opened.trans before.opened
  added := h.added.trans before.added
  device := by
    rw [h.device]
    exact before.device
  registered := by rw [h.registered, h.device, before.registered]
  valid := by
    rw [h.fresh]
    exact before.valid
  unborn := by
    rw [h.fresh, h.history]
    exact before.unborn
  current := by rw [h.history, h.device, before.current]
  settled := by
    rw [h.history, h.device]
    exact before.settled

theorem idle (h : SameDevice w w') (up : w'.kernel.up = w.kernel.up) (before : Idle w) :
    Idle w' where
  opened := h.opened.trans before.opened
  added := h.added.trans before.added
  device := h.device.trans before.device
  registered := h.registered.trans before.registered
  down := up.trans before.down
  valid := by
    rw [h.fresh]
    exact before.valid
  unborn := by
    rw [h.fresh, h.history]
    exact before.unborn
  settled := by
    rw [h.history]
    exact before.settled

end SameDevice

section Step

variable {arch : Arch} {s t : Session} {xs : List Addr}

theorem open_inSession (h : InSession s xs) {alloc : Bool} {register : Int}
    (step : sessionStep arch s (.ioDevOpen alloc register) = some t) : ∃ ys, InSession t ys := by
  obtain ⟨⟨ret, w⟩, result, rfl⟩ := Option.map_eq_some_iff.mp step
  rcases h.device with ⟨no_file, idle⟩ | ⟨one_file, serving⟩
  · obtain ⟨ret', w', result', opened⟩ := ioDevOpen_idle idle s.fuel alloc register
    obtain ⟨rfl, rfl⟩ : ret' = ret ∧ w' = w := by
      rw [result] at result'
      simpa using result'.symm
    obtain ⟨rfl, disabled⟩ := h.drained idle.down
    have ledger : TxLedger (s.withWorld w').tx [] := by
      constructor
      · change Represents w'.mem w'.queue []
        rw [opened.mem, opened.queue]
        exact h.ledger.represents
      · intro x
        change [].count x + w'.mem.freed.count x = s.tx.passed.count x
        rw [opened.mem]
        exact h.ledger.count x
    have drained : w'.kernel.up = false → ([] : List Addr) = [] ∧ w'.queue.enabled = 0 :=
      fun _ => ⟨rfl, by rw [opened.queue]; exact disabled⟩
    refine ⟨[], ?_⟩
    rcases opened.outcome with ⟨failed, _, idle'⟩ | ⟨rfl, serving⟩
    · simp only [if_neg failed]
      exact ⟨ledger, Or.inl ⟨no_file, idle'⟩, drained, by simp, h.delivered⟩
    · simp only [if_true]
      exact ⟨ledger, Or.inr ⟨congrArg (· + 1) no_file, serving⟩, drained, by simp, h.delivered⟩
  · have refused : -EACCES ≠ 0 := by decide
    rw [ioDevOpen_serving serving] at result
    obtain ⟨rfl, rfl⟩ : -EACCES = ret ∧ s.tx.world = w := by simpa using result
    simp only [if_neg refused]
    exact ⟨xs, h⟩

theorem close_inSession (h : InSession s xs) (step : sessionStep arch s .ioDevClose = some t) :
    ∃ ys, InSession t ys := by
  simp only [sessionStep, Option.ite_none_left_eq_some] at step
  obtain ⟨some_file, step⟩ := step
  obtain ⟨w, result, rfl⟩ := Option.map_eq_some_iff.mp step
  obtain ⟨one_file, serving⟩ := h.files_le some_file
  obtain ⟨w', result', released⟩ :=
    ioDevClose_serving serving h.ledger.represents h.drained h.enough
  obtain rfl : w' = w := Option.some.inj (result'.symm.trans result)
  have ledger : TxLedger (s.withWorld w').tx [] :=
    taken_ledger (by rw [List.append_nil]; exact h.ledger) released.represents released.freed
  refine ⟨[], ledger, Or.inl ⟨?_, released.idle⟩, fun _ => ⟨rfl, released.enabled⟩, by simp,
    h.delivered⟩
  change s.files - 1 = 0
  omega

theorem up_inSession (h : InSession s xs) (step : sessionStep arch s .netDevOpen = some t) :
    ∃ ys, InSession t ys := by
  simp only [sessionStep, Option.ite_none_left_eq_some, Option.some.injEq] at step
  obtain ⟨registered, rfl⟩ := step
  obtain ⟨one_file, serving⟩ := h.serving registered
  have same : SameDevice s.tx.world ((netDevOpen s.tx.world).withUp true) :=
    ⟨rfl, rfl, rfl, rfl, rfl, rfl⟩
  exact ⟨xs, ⟨enableQueue_represents h.ledger.represents 1, h.ledger.count⟩,
    Or.inr ⟨one_file, same.serving serving⟩, fun down => (nomatch down), h.sent, h.delivered⟩

theorem down_inSession (h : InSession s xs) (step : sessionStep arch s .netDevClose = some t) :
    ∃ ys, InSession t ys := by
  simp only [sessionStep, Option.ite_none_left_eq_some] at step
  obtain ⟨registered, step⟩ := step
  obtain ⟨w, result, rfl⟩ := Option.map_eq_some_iff.mp step
  obtain ⟨one_file, serving⟩ := h.serving registered
  have closed := netDevClose_closes h.ledger.represents result
  have same : SameDevice s.tx.world (w.withUp false) := by
    have kept := SameDevice.of_closed closed
    exact ⟨kept.opened, kept.added, kept.device, kept.netdevs, kept.fresh, kept.registered⟩
  have ledger : TxLedger (s.withWorld (w.withUp false)).tx [] :=
    taken_ledger (by rw [List.append_nil]; exact h.ledger) closed.represents closed.freed
  exact ⟨[], ledger, Or.inr ⟨one_file, same.serving serving⟩, fun _ => ⟨rfl, closed.enabled⟩,
    by simp, h.delivered⟩

/-- Sends and reads leave the device and IFF_UP alone. -/
theorem tx_device {w : World} (h : InSession s xs) (frame : World.TxFrame s.tx.world w) :
    s.files = 0 ∧ Idle w ∨ s.files = 1 ∧ Serving w := by
  have same := SameDevice.of_frame frame
  rcases h.device with ⟨no_file, idle⟩ | ⟨one_file, serving⟩
  · exact Or.inl ⟨no_file, same.idle (by rw [frame.rx]) idle⟩
  · exact Or.inr ⟨one_file, same.serving serving⟩

theorem send_inSession (h : InSession s xs) {skb : Addr} {txQueueLen : UInt64}
    (step : sessionStep arch s (.netDevSend skb txQueueLen) = some t) : ∃ ys, InSession t ys := by
  obtain ⟨tx, sent, rfl⟩ := Option.map_eq_some_iff.mp step
  simp only [txStep, Option.ite_none_right_eq_some, Option.some.injEq] at sent
  obtain ⟨mayPass, rfl⟩ := sent
  have frame := send_frame s.tx.world skb txQueueLen
  obtain ⟨ys, ledger, outcome⟩ := send_ledger h.ledger mayPass txQueueLen
  have device := tx_device h frame
  refine ⟨ys, ledger, device, fun down => ?_, fun x hx => ?_, h.delivered⟩
  · have down' : s.tx.world.kernel.up = false := (congrArg Kernel.up frame.rx).symm.trans down
    obtain ⟨rfl, disabled⟩ := h.drained down'
    refine ⟨?_, frame.enabled.trans disabled⟩
    rcases outcome with ⟨_, same⟩ | ⟨accepted, _⟩
    · exact same
    · exact False.elim (accepted (Or.inl disabled))
  · change Function.update s.sentIn skb s.session x = s.session
    by_cases new : x = skb
    · rw [new, Function.update_self]
    · rw [Function.update_of_ne new]
      refine h.sent x ?_
      rcases outcome with ⟨_, rfl⟩ | ⟨_, rfl⟩
      · exact hx
      · exact (List.mem_append.mp hx).resolve_right fun last => new (List.mem_singleton.mp last)

theorem read_inSession (h : InSession s xs) {iv : List Iovec} {len : Int} {env : ReadEnv}
    (step : sessionStep arch s (.ioReadToIovec iv len env) = some t) : ∃ ys, InSession t ys := by
  simp only [sessionStep, Option.ite_none_left_eq_some] at step
  obtain ⟨_, step⟩ := step
  obtain ⟨tx, read, rfl⟩ := Option.map_eq_some_iff.mp step
  obtain rfl := Option.some.inj read
  obtain ⟨taken, rest, counted, rfl, moved, _⟩ :=
    ioReadToIovec_taken h.ledger.represents arch iv len env
  have device := tx_device h moved.frame
  refine ⟨rest, taken_ledger h.ledger moved.represents moved.freed, device, fun down => ?_,
    fun x hx => h.sent x (List.mem_append_right taken hx), fun p hp => ?_⟩
  · have down' : s.tx.world.kernel.up = false := (congrArg Kernel.up moved.frame.rx).symm.trans down
    obtain ⟨empty, disabled⟩ := h.drained down'
    exact ⟨(List.append_eq_nil_iff.mp empty).2, moved.frame.enabled.trans disabled⟩
  · rcases List.mem_append.mp hp with old | new
    · exact h.delivered p old
    · simp only [moved.freed, List.drop_left] at new
      obtain ⟨x, hx, rfl⟩ := List.mem_map.mp new
      exact h.sent x (List.mem_append_left rest hx)

end Step

theorem sessionStep_inSession {arch : Arch} {s t : Session} {call : SessionCall}
    (h : ∃ xs, InSession s xs) (step : sessionStep arch s call = some t) :
    ∃ xs, InSession t xs := by
  obtain ⟨xs, h⟩ := h
  cases call with
  | ioDevOpen alloc register => exact open_inSession h step
  | ioDevClose => exact close_inSession h step
  | netDevOpen => exact up_inSession h step
  | netDevClose => exact down_inSession h step
  | netDevSend skb txQueueLen => exact send_inSession h step
  | ioReadToIovec iv len env => exact read_inSession h step

/-- What the callers owe the driver. -/
def Legal (s : Session) : SessionCall → Prop
  | .ioDevOpen _ _ => True
  | .ioDevClose | .ioReadToIovec _ _ _ => s.files ≠ 0
  | .netDevOpen | .netDevClose => s.tx.world.kernel.registered ≠ NULL
  | .netDevSend skb _ => MayPass s.tx.world.mem s.tx.passed skb

/-- Every legal call returns; in particular no flush runs on for ever. -/
theorem legal_returns {arch : Arch} {s : Session} {xs : List Addr} {call : SessionCall}
    (h : InSession s xs) (legal : Legal s call) : ∃ t, sessionStep arch s call = some t := by
  cases call with
  | ioDevOpen alloc register =>
    rcases h.device with ⟨_, idle⟩ | ⟨_, serving⟩
    · obtain ⟨ret, w, result, _⟩ := ioDevOpen_idle idle s.fuel alloc register
      exact ⟨_, by simp only [sessionStep, result, Option.map_some]; rfl⟩
    · exact ⟨_, by simp only [sessionStep, ioDevOpen_serving serving, Option.map_some]; rfl⟩
  | ioDevClose =>
    obtain ⟨w, result, _⟩ := ioDevClose_serving (h.files_le legal).2 h.ledger.represents h.drained
      h.enough
    exact ⟨_, by simp only [sessionStep, if_neg legal, result, Option.map_some]; rfl⟩
  | netDevOpen => exact ⟨_, if_neg legal⟩
  | netDevClose =>
    obtain ⟨w, result⟩ := netDevClose_returns h.ledger.represents h.enough
    exact ⟨_, by simp only [sessionStep, if_neg legal, result, Option.map_some]; rfl⟩
  | netDevSend skb txQueueLen =>
    exact ⟨_, by simp only [sessionStep, txStep, if_pos (show MayPass _ _ _ from legal),
      Option.map_some]; rfl⟩
  | ioReadToIovec iv len env => exact ⟨_, if_neg legal⟩

theorem open_failure {w w' : World} {fuel : Nat} {alloc : Bool} {register ret : Int}
    (device : Idle w ∨ Serving w) (result : ioDevOpen fuel alloc register w = some (ret, w'))
    (failed : ret ≠ 0) : w'.vnet = w.vnet := by
  rcases device with idle | serving
  · obtain ⟨ret', w'', result', opened⟩ := ioDevOpen_idle idle fuel alloc register
    obtain ⟨rfl, rfl⟩ : ret' = ret ∧ w'' = w' := by
      rw [result] at result'
      simpa using result'.symm
    rcases opened.outcome with ⟨_, same, _⟩ | ⟨succeeded, _⟩
    · exact same
    · exact False.elim (failed succeeded)
  · rw [ioDevOpen_serving serving] at result
    obtain ⟨_, rfl⟩ : -EACCES = ret ∧ w = w' := by simpa using result
    rfl

theorem InSession.flags {s : Session} {xs : List Addr} (h : InSession s xs) :
    (s.tx.world.vnet.ioDev.opened = 1 ↔ s.tx.world.vnet.netDev.device ≠ NULL) ∧
    (s.tx.world.vnet.netDev.device ≠ NULL ↔ s.tx.world.vnet.netDev.added = 1) := by
  rcases h.device with ⟨_, idle⟩ | ⟨_, serving⟩
  · simp [idle.opened, idle.device, idle.added]
  · simp [serving.opened, serving.device, serving.added]

theorem InSession.devices {s : Session} {xs : List Addr} (h : InSession s xs) (dev : Addr) :
    Settled dev (s.tx.world.history dev) ∨
      s.files ≠ 0 ∧ dev = s.tx.world.vnet.netDev.device ∧
        s.tx.world.history dev = [.alloc dev, .register dev] := by
  rcases h.device with ⟨_, idle⟩ | ⟨one_file, serving⟩
  · exact Or.inl (idle.settled dev)
  · by_cases current : dev = s.tx.world.vnet.netDev.device
    · subst current
      exact Or.inr ⟨by omega, rfl, serving.current⟩
    · exact Or.inl (serving.settled dev current)

/-- In every state between calls the three flags agree, every net device is
settled or the one in use, a failed open changes nothing in vnet, a closed
driver has an empty, disabled queue, every legal call returns, and no read has
taken a packet of an earlier session. -/
theorem sessions_isolated (arch : Arch) (s₀ s : Session) (calls : List SessionCall)
    (fresh : SessionFresh s₀) (h : Execution.run (sessionStep arch) s₀ calls = some s) :
    (s.tx.world.vnet.ioDev.opened = 1 ↔ s.tx.world.vnet.netDev.device ≠ NULL) ∧
    (s.tx.world.vnet.netDev.device ≠ NULL ↔ s.tx.world.vnet.netDev.added = 1) ∧
    (∀ dev, Settled dev (s.tx.world.history dev) ∨
      s.files ≠ 0 ∧ dev = s.tx.world.vnet.netDev.device ∧
        s.tx.world.history dev = [.alloc dev, .register dev]) ∧
    (∀ fuel alloc register ret w, ioDevOpen fuel alloc register s.tx.world = some (ret, w) →
      ret ≠ 0 → w.vnet = s.tx.world.vnet) ∧
    (s.files = 0 → Represents s.tx.world.mem s.tx.world.queue [] ∧
      s.tx.world.queue.enabled = 0 ∧ queueClose s.tx.world.queue = false) ∧
    (∀ p ∈ s.delivered, p.1 = p.2) ∧
    (∀ call, Legal s call → ∃ t, sessionStep arch s call = some t) := by
  obtain ⟨xs, inv⟩ : ∃ xs, InSession s xs :=
    Execution.run_invariant (fun s => ∃ xs, InSession s xs)
      (fun _ _ _ => sessionStep_inSession) ⟨[], fresh_inSession fresh⟩ h
  refine ⟨inv.flags.1, inv.flags.2, inv.devices, ?_, ?_, inv.delivered,
    fun call => legal_returns inv⟩
  · intro fuel alloc register ret w result failed
    exact open_failure (inv.device.imp And.right And.right) result failed
  · intro no_file
    rcases inv.device with ⟨_, idle⟩ | ⟨one_file, _⟩
    · obtain ⟨rfl, disabled⟩ := inv.drained idle.down
      have rep := inv.ledger.represents
      exact ⟨rep, disabled, by simp [queueClose, rep.head_eq_null_iff]⟩
    · omega

def idleSession : Session := ⟨loaded, 0, 0, fun _ => 0, []⟩

/-- A failed open, a session whose packet is never read, and a second session
that reads the one sent in it. -/
def twoSessions : List SessionCall :=
  [.ioDevOpen true (-ENOMEM), .ioDevOpen true 0, .netDevOpen, .netDevSend 1 256, .ioDevClose,
    .ioDevOpen true 0, .netDevOpen, .netDevSend 2 256, .ioDevOpen true 0,
    .ioReadToIovec [⟨4096, 12⟩] 12 ⟨⟨true, false, fun _ => 0⟩, fun _ => none, none⟩, .ioDevClose]

theorem idleSession_fresh : SessionFresh idleSession :=
  ⟨loaded_fresh, rfl, rfl, rfl, rfl, by decide, rfl, rfl, rfl, rfl⟩

theorem sessions_isolated_two :
    ∃ s, Execution.run (sessionStep lp64) idleSession twoSessions = some s ∧
      s.delivered = [(2, 2)] ∧ queueClose s.tx.world.queue = false := by
  have outcome : (Execution.run (sessionStep lp64) idleSession twoSessions).map
      (fun s => (s.files, s.delivered)) = some (0, [(2, 2)]) := by decide +kernel
  obtain ⟨s, hrun, ended⟩ := Option.map_eq_some_iff.mp outcome
  obtain ⟨_, _, _, _, closed, _⟩ :=
    sessions_isolated lp64 idleSession s twoSessions idleSession_fresh hrun
  exact ⟨s, hrun, congrArg Prod.snd ended, (closed (congrArg Prod.fst ended)).2.2⟩

end Kvnet
