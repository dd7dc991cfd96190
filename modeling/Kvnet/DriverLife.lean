import Kvnet.Lifecycle
import Kvnet.ModuleLoad
import Kvnet.QueueBound

/-!
# The driver from load to unload

The module is loaded, its device opened and closed any number of times, with
traffic in both directions while the interface is up, and the module is unloaded,
again and again. Calls run one after another. The kernel unloads the module only
while no file is open, and calls net_dev_send only for a registered device.
-/

namespace Kvnet

def KVNET_MAX_MTU : UInt32 := 1400

/-- The fields of struct net_device that net_dev_setup sets. -/
structure NetDevice where
  hardHeaderLen : Nat
  addrLen : Nat
  mtu : UInt32
  txQueueLen : UInt64
  devAddr : List UInt8
  deriving DecidableEq

/-- net_dev_setup -/
def netDevSetup (cfg : Cfg) : NetDevice where
  hardHeaderLen := 14
  addrLen := 6
  mtu := KVNET_MAX_MTU
  txQueueLen := cfg.maxQueueLen.toInt64.toUInt64
  devAddr := cfg.mac.take 6

/-- While gs_vnet points to an object, the vnet of the session's world is that
object's. `device` is what net_dev_setup made of the net device allocated last. -/
structure Life where
  session : Session
  gsVnet : Option (Addr × IoDevOs)
  log : List ResourceEvent
  oops : Bool
  device : NetDevice

inductive LifeAction where
  | moduleStart (env : LoadEnv)
  | moduleStop
  | ioDevOpen (alloc : Bool) (register : Int)
  | ioDevClose
  | netDevOpen
  | netDevClose
  | netDevSend (skb : Addr)
  | ioReadToIovec (iv : List Iovec) (len : Int) (env : ReadEnv)
  | ioWriteFromIovec (iv : List Iovec) (len : Int) (env : WriteEnv)
  | cancelPendingRead

def World.withVnet (w : World) (vnet : Vnet) : World := { w with vnet := vnet }

namespace Life

def world (l : Life) : World := l.session.tx.world

/-- What gs_vnet points to. -/
def object (l : Life) : Option VnetObject :=
  l.gsVnet.map fun (addr, os) => ⟨addr, l.world.vnet, os⟩

/-- After a call of the module. -/
def after (l : Life) (o : Outcome) : Life :=
  { l with
    session := match o.gsVnet with
      | some v => l.session.withWorld (l.world.withVnet v.vnet)
      | none => l.session
    gsVnet := o.gsVnet.map fun v => (v.addr, v.os)
    log := l.log ++ o.log
    oops := o.oops }

/-- A call on the loaded driver. -/
def call (arch : Arch) (l : Life) (c : SessionCall) : Option Life :=
  if l.gsVnet.isNone then none
  else (sessionStep arch l.session c).map fun s => { l with session := s }

/-- A call through an open file that changes nothing but the world. -/
def through (l : Life) (w : World) : Option Life :=
  if l.gsVnet.isNone || l.session.files = 0 then none
  else some { l with session := l.session.withWorld w }

def step (arch : Arch) (l : Life) (a : LifeAction) : Option Life :=
  if l.oops then none
  else match a with
    | .moduleStart env =>
      if l.gsVnet.isSome then none else some (l.after (moduleStart none env).2)
    | .moduleStop =>
      if l.gsVnet.isNone || l.session.files ≠ 0 then none
      else some (l.after (moduleStop l.object))
    | .ioDevOpen alloc register =>
      (l.call arch (.ioDevOpen alloc register)).map fun t =>
        -- alloc_netdev runs net_dev_setup on the new device
        if l.world.vnet.ioDev.opened = 0 ∧ alloc then
          { t with device := netDevSetup l.world.vnet.cfg }
        else t
    | .ioDevClose => l.call arch .ioDevClose
    | .netDevOpen => l.call arch .netDevOpen
    | .netDevClose => l.call arch .netDevClose
    | .netDevSend skb =>
      if l.world.kernel.registered = NULL then none
      else l.call arch (.netDevSend skb l.device.txQueueLen)
    | .ioReadToIovec iv len env => l.call arch (.ioReadToIovec iv len env)
    | .ioWriteFromIovec iv len env =>
      l.through (ioWriteFromIovec arch l.world iv len env).world
    | .cancelPendingRead => l.through (cancelPendingRead l.world)

/-- The module has never been loaded. -/
structure Fresh (l : Life) : Prop where
  session : SessionFresh l.session
  gsVnet : l.gsVnet = none
  log : l.log = []
  safe : l.oops = false

end Life

/-- The fields of the object that only the module's own calls change. -/
structure SameObject (w w' : World) : Prop where
  added : w'.vnet.ioDev.added = w.vnet.ioDev.added
  cfg : w'.vnet.cfg = w.vnet.cfg

theorem SameObject.of_frame {w w' : World} (h : World.TxFrame w w') : SameObject w w' :=
  ⟨by rw [h.ioDev], h.cfg⟩

theorem SameObject.of_closed {w w' : World} {xs : List Addr} (h : Closed w w' xs) :
    SameObject w w' :=
  ⟨by rw [h.ioDev], h.cfg⟩

/-- No session call touches them, and the queue grows only by a packet sent. -/
theorem sessionStep_object {arch : Arch} {s t : Session} {xs ys : List Addr} {c : SessionCall}
    (h : InSession s xs) (h' : InSession t ys) (moved : sessionStep arch s c = some t) :
    SameObject s.tx.world t.tx.world ∧
      (ys.length ≤ xs.length ∨ ∃ skb txQueueLen, c = .netDevSend skb txQueueLen ∧
        ¬ SendDrops s.tx.world.queue txQueueLen ∧ ys.length = xs.length + 1) := by
  have unique {zs : List Addr} (rep : Represents t.tx.world.mem t.tx.world.queue zs) : ys = zs :=
    h'.ledger.represents.unique rep
  cases c with
  | ioDevOpen alloc register =>
    obtain ⟨⟨ret, w⟩, result, same⟩ := Option.map_eq_some_iff.mp moved
    have world : t.tx.world = w := by
      rw [← same]
      by_cases ok : ret = 0
      · simp only [if_pos ok]
        rfl
      · simp only [if_neg ok]
        rfl
    have kept : SameObject s.tx.world w ∧ w.mem = s.tx.world.mem ∧ w.queue = s.tx.world.queue := by
      rcases h.device with ⟨_, idle⟩ | ⟨_, serving⟩
      · cases alloc with
        | false =>
          rw [ioDevOpen_unallocated idle] at result
          obtain ⟨_, rfl⟩ := Prod.mk.inj (Option.some.inj result)
          exact ⟨⟨rfl, rfl⟩, rfl, rfl⟩
        | true =>
          by_cases fails : register ≠ 0
          · rw [ioDevOpen_unregistered idle s.fuel fails] at result
            obtain ⟨_, rfl⟩ := Prod.mk.inj (Option.some.inj result)
            exact ⟨⟨rfl, rfl⟩, rfl, rfl⟩
          · rw [not_not.mp fails, ioDevOpen_registered idle] at result
            obtain ⟨_, rfl⟩ := Prod.mk.inj (Option.some.inj result)
            exact ⟨⟨rfl, rfl⟩, rfl, rfl⟩
      · rw [ioDevOpen_serving serving] at result
        obtain ⟨_, rfl⟩ := Prod.mk.inj (Option.some.inj result)
        exact ⟨⟨rfl, rfl⟩, rfl, rfl⟩
    obtain ⟨object, mem, queue⟩ := kept
    rw [← world] at object mem queue
    refine ⟨object, Or.inl ?_⟩
    rw [unique (by rw [mem, queue]; exact h.ledger.represents)]
  | ioDevClose =>
    simp only [sessionStep, Option.ite_none_left_eq_some] at moved
    obtain ⟨some_file, moved⟩ := moved
    obtain ⟨w, result, rfl⟩ := Option.map_eq_some_iff.mp moved
    obtain ⟨_, serving⟩ := h.files_le some_file
    cases up : s.tx.world.kernel.up with
    | false =>
      rw [ioDevClose_down serving _ up] at result
      obtain rfl := Option.some.inj result
      exact ⟨⟨rfl, rfl⟩, Or.inl (Nat.le_of_eq (congrArg _ (unique h.ledger.represents)))⟩
    | true =>
      obtain ⟨v, hv⟩ := netDevClose_returns h.ledger.represents h.enough
      have closed := netDevClose_closes h.ledger.represents hv
      rw [ioDevClose_up serving up hv closed.device] at result
      obtain rfl := Option.some.inj result
      have object := SameObject.of_closed closed
      refine ⟨⟨object.added, object.cfg⟩, Or.inl ?_⟩
      rw [unique closed.represents]
      exact Nat.zero_le _
  | netDevOpen =>
    simp only [sessionStep, Option.ite_none_left_eq_some, Option.some.injEq] at moved
    obtain ⟨_, rfl⟩ := moved
    refine ⟨⟨rfl, rfl⟩, Or.inl (Nat.le_of_eq (congrArg _ (unique ?_)))⟩
    exact enableQueue_represents h.ledger.represents 1
  | netDevClose =>
    simp only [sessionStep, Option.ite_none_left_eq_some] at moved
    obtain ⟨_, moved⟩ := moved
    obtain ⟨w, result, rfl⟩ := Option.map_eq_some_iff.mp moved
    have closed := netDevClose_closes h.ledger.represents result
    have object := SameObject.of_closed closed
    refine ⟨⟨object.added, object.cfg⟩, Or.inl ?_⟩
    rw [unique closed.represents]
    exact Nat.zero_le _
  | netDevSend skb txQueueLen =>
    obtain ⟨tx, sent, rfl⟩ := Option.map_eq_some_iff.mp moved
    simp only [txStep, Option.ite_none_right_eq_some, Option.some.injEq] at sent
    obtain ⟨mayPass, rfl⟩ := sent
    refine ⟨SameObject.of_frame (send_frame s.tx.world skb txQueueLen), ?_⟩
    obtain ⟨zs, ledger, ⟨_, rfl⟩ | ⟨accepts, rfl⟩⟩ := send_ledger h.ledger mayPass txQueueLen
    · exact Or.inl (Nat.le_of_eq (congrArg _ (unique ledger.represents)))
    · refine Or.inr ⟨skb, txQueueLen, rfl, accepts, ?_⟩
      rw [unique ledger.represents, List.length_append, List.length_singleton]
  | ioReadToIovec iv len env =>
    simp only [sessionStep, Option.ite_none_left_eq_some] at moved
    obtain ⟨_, moved⟩ := moved
    obtain ⟨tx, read, rfl⟩ := Option.map_eq_some_iff.mp moved
    obtain rfl := Option.some.inj read
    obtain ⟨taken, rest, counted, rfl, taking, _⟩ :=
      ioReadToIovec_taken h.ledger.represents arch iv len env
    refine ⟨SameObject.of_frame taking.frame, Or.inl ?_⟩
    rw [unique taking.represents, List.length_append]
    exact Nat.le_add_left _ _

theorem sessionStep_files {arch : Arch} {s t : Session} {c : SessionCall}
    (moved : sessionStep arch s c = some t) :
    t.files ≤ s.files ∨ ∃ alloc register, c = .ioDevOpen alloc register := by
  cases c with
  | ioDevOpen alloc register => exact Or.inr ⟨alloc, register, rfl⟩
  | ioDevClose =>
    simp only [sessionStep, Option.ite_none_left_eq_some] at moved
    obtain ⟨w, _, rfl⟩ := Option.map_eq_some_iff.mp moved.2
    exact Or.inl (Nat.sub_le _ _)
  | netDevOpen =>
    simp only [sessionStep, Option.ite_none_left_eq_some, Option.some.injEq] at moved
    exact Or.inl (by rw [← moved.2]; exact le_rfl)
  | netDevClose =>
    simp only [sessionStep, Option.ite_none_left_eq_some] at moved
    obtain ⟨w, _, rfl⟩ := Option.map_eq_some_iff.mp moved.2
    exact Or.inl le_rfl
  | netDevSend skb txQueueLen =>
    obtain ⟨tx, _, rfl⟩ := Option.map_eq_some_iff.mp moved
    exact Or.inl le_rfl
  | ioReadToIovec iv len env =>
    simp only [sessionStep, Option.ite_none_left_eq_some] at moved
    obtain ⟨tx, _, rfl⟩ := Option.map_eq_some_iff.mp moved.2
    exact Or.inl le_rfl

/-- A net device is registered exactly while a file is open. -/
theorem InSession.registered_iff {s : Session} {xs : List Addr} (h : InSession s xs) :
    s.tx.world.kernel.registered ≠ NULL ↔ s.files = 1 := by
  rcases h.device with ⟨no_file, idle⟩ | ⟨one_file, serving⟩
  · exact iff_of_false (fun some_device => some_device idle.registered) (by omega)
  · refine iff_of_true ?_ one_file
    rw [serving.registered]
    exact serving.device

/-- What a call through an open file may change without touching the session. -/
theorem InSession.through {s : Session} {xs : List Addr} (h : InSession s xs) {w : World}
    (mem : w.mem = s.tx.world.mem) (queue : w.queue = s.tx.world.queue)
    (same : SameDevice s.tx.world w) (up : w.kernel.up = s.tx.world.kernel.up) :
    InSession (s.withWorld w) xs := by
  refine ⟨⟨?_, fun x => ?_⟩, ?_, fun down => ?_, h.sent, h.delivered⟩
  · change Represents w.mem w.queue xs
    rw [mem, queue]
    exact h.ledger.represents
  · change xs.count x + w.mem.freed.count x = s.tx.passed.count x
    rw [mem]
    exact h.ledger.count x
  · rcases h.device with ⟨no_file, idle⟩ | ⟨one_file, serving⟩
    · exact Or.inl ⟨no_file, same.idle up idle⟩
    · exact Or.inr ⟨one_file, same.serving serving⟩
  · change w.kernel.up = false at down
    change xs = [] ∧ w.queue.enabled = 0
    rw [queue]
    exact h.drained (up ▸ down)

theorem write_through (arch : Arch) (w : World) (iv : List Iovec) (len : Int) (env : WriteEnv) :
    let w' := (ioWriteFromIovec arch w iv len env).world
    w'.mem = w.mem ∧ w'.queue = w.queue ∧ SameDevice w w' ∧ w'.kernel.up = w.kernel.up ∧
      SameObject w w' := by
  obtain ⟨v, user, frames, world, injected⟩ := ioWriteFromIovec_injected arch w iv len env
  have mem := injected.mem
  have vnet := injected.vnet
  have kernel := injected.rx
  simp only [world]
  refine ⟨mem, ?_, ⟨?_, ?_, ?_, ?_, ?_, ?_⟩, ?_, ?_, ?_⟩
  · exact congrArg (fun vnet => vnet.netDev.queue) vnet
  · exact congrArg (fun vnet => vnet.ioDev.opened) vnet
  · exact congrArg (fun vnet => vnet.netDev.added) vnet
  · exact congrArg (fun vnet => vnet.netDev.device) vnet
  · exact (congrArg Kernel.netdevs kernel).trans rfl
  · exact (congrArg Kernel.fresh kernel).trans rfl
  · exact (congrArg Kernel.registered kernel).trans rfl
  · exact (congrArg Kernel.up kernel).trans rfl
  · exact congrArg (fun vnet => vnet.ioDev.added) vnet
  · exact (congrArg Vnet.cfg vnet).trans rfl

theorem ioDevAdd_vnet (v : VnetObject) (env : LoadEnv) :
    (ioDevAdd v env).2.1.vnet.ioDev.opened = v.vnet.ioDev.opened ∧
      (ioDevAdd v env).2.1.vnet.netDev = v.vnet.netDev ∧
      (ioDevAdd v env).2.1.vnet.cfg = v.vnet.cfg := by
  unfold ioDevAdd
  cases env.allocChrdevRegion with
  | error e => exact ⟨rfl, rfl, rfl⟩
  | ok dev =>
    cases env.cdevAdd with
    | some e => exact ⟨rfl, rfl, rfl⟩
    | none =>
      cases env.classCreate with
      | error e => exact ⟨rfl, rfl, rfl⟩
      | ok c =>
        cases env.deviceCreate with
        | error e => exact ⟨rfl, rfl, rfl⟩
        | ok d => exact ⟨rfl, rfl, rfl⟩

/-- A module just loaded: nothing opened, an empty queue, and the configuration. -/
structure JustLoaded (vnet : Vnet) : Prop where
  opened : vnet.ioDev.opened = 0
  added : vnet.netDev.added = 0
  device : vnet.netDev.device = NULL
  queue : vnet.netDev.queue = queueInit vnet.netDev.queue
  cfg : vnet.cfg = loadCfg

theorem moduleStart_justLoaded {env : LoadEnv} {v : VnetObject}
    (loaded : (moduleStart none env).2.gsVnet = some v) : JustLoaded v.vnet := by
  cases memory : env.kmalloc with
  | none => simp only [moduleStart, vnetInit, memory, moduleStop, reduceCtorEq] at loaded
  | some addr =>
    obtain ⟨opened, netDev, cfg⟩ := ioDevAdd_vnet
      { zeroVnet addr with vnet := { (zeroVnet addr).vnet with cfg := loadCfg } } env
    simp only [moduleStart, vnetInit, memory] at loaded
    generalize ioDevAdd _ env = added at loaded opened netDev cfg
    obtain ⟨ret, u, log⟩ := added
    by_cases failed : ret ≠ 0
    · simp only [if_pos failed, moduleStop, reduceCtorEq] at loaded
    · simp only [if_neg failed, Option.some.injEq] at loaded
      subst loaded
      simp only at opened netDev cfg
      refine ⟨opened, ?_, ?_, ?_, cfg⟩
      · rw [netDev]
        rfl
      · rw [netDev]
        rfl
      · rw [netDev]
        rfl

/-- The session goes on with the new object: its queue is empty as the old one's
was. -/
theorem InSession.load {s : Session} (h : InSession s []) (no_file : s.files = 0) {vnet : Vnet}
    (new : JustLoaded vnet) : InSession (s.withWorld (s.tx.world.withVnet vnet)) [] := by
  have idle : Idle s.tx.world := by
    rcases h.device with ⟨_, idle⟩ | ⟨one_file, _⟩
    · exact idle
    · omega
  refine ⟨⟨?_, h.ledger.count⟩, Or.inl ⟨no_file, ?_⟩, fun _ => ⟨rfl, ?_⟩, by simp, h.delivered⟩
  · change Represents s.tx.world.mem vnet.netDev.queue []
    rw [new.queue]
    exact Represents.init _ _
  · exact ⟨new.opened, new.added, new.device, idle.registered, idle.down, idle.valid, idle.unborn,
      idle.settled⟩
  · change vnet.netDev.queue.enabled = 0
    rw [new.queue]
    rfl

/-- What is held is what the object says; between the loads nothing is. The queue
never exceeds the configured length. -/
structure Living (l : Life) (xs : List Addr) : Prop where
  safe : l.oops = false
  session : InSession l.session xs
  bound : xs.length ≤ 256
  device : l.session.files = 1 → l.device = netDevSetup loadCfg
  unloaded : l.gsVnet = none → l.session.files = 0 ∧ accounts [] l.log = some []
  loaded : ∀ v, l.object = some v → accounts [] l.log = some v.holds ∧ v.vnet.cfg = loadCfg

theorem fresh_living {l : Life} (fresh : l.Fresh) : Living l [] := by
  refine ⟨fresh.safe, fresh_inSession fresh.session, Nat.zero_le _, fun one_file => ?_,
    fun _ => ⟨fresh.session.files, ?_⟩, fun v object => ?_⟩
  · rw [fresh.session.files] at one_file
    cases one_file
  · rw [fresh.log]
    rfl
  · rw [Life.object, fresh.gsVnet] at object
    cases object

section Step

variable {arch : Arch} {l t : Life} {xs : List Addr}

/-- Without a file the queue is empty. -/
theorem Living.closed (h : Living l xs) (no_file : l.session.files = 0) : xs = [] := by
  rcases h.session.device with ⟨_, idle⟩ | ⟨one_file, _⟩
  · exact (h.session.drained idle.down).1
  · omega

theorem load_living (h : Living l xs) {env : LoadEnv} (unloaded : l.gsVnet = none)
    (memory : env.kmalloc ≠ none) : Living (l.after (moduleStart none env).2) [] := by
  obtain ⟨addr, some_memory⟩ := Option.ne_none_iff_exists'.mp memory
  obtain ⟨no_file, log⟩ := h.unloaded unloaded
  obtain rfl := h.closed no_file
  rcases moduleStart_unloaded some_memory with ⟨_, unloads⟩ | ⟨_, v, loads⟩
  · refine ⟨unloads.safe, ?_, Nat.zero_le _, ?_, fun _ => ?_, fun v object => ?_⟩
    · simp only [Life.after, unloads.gsVnet]
      exact h.session
    · simp only [Life.after, unloads.gsVnet]
      exact h.device
    · simp only [Life.after, unloads.gsVnet]
      rw [accounts_append, log]
      exact ⟨no_file, unloads.log⟩
    · simp only [Life.object, Life.after, unloads.gsVnet, Option.map_none, reduceCtorEq] at object
  · have new := moduleStart_justLoaded loads.gsVnet
    refine ⟨loads.safe, ?_, Nat.zero_le _, ?_, fun gone => ?_, fun u object => ?_⟩
    · simp only [Life.after, loads.gsVnet]
      exact h.session.load no_file new
    · simp only [Life.after, loads.gsVnet]
      exact h.device
    · simp only [Life.after, loads.gsVnet, Option.map_some, reduceCtorEq] at gone
    · simp only [Life.object, Life.after, loads.gsVnet, Option.map_some, Option.some.injEq]
        at object
      obtain rfl : v = u := object
      refine ⟨?_, new.cfg⟩
      simp only [Life.after]
      rw [accounts_append, log]
      exact loads.log

theorem unload_living (h : Living l xs) (loaded : l.gsVnet ≠ none)
    (no_file : l.session.files = 0) : Living (l.after (moduleStop l.object)) [] := by
  obtain ⟨⟨addr, os⟩, some_object⟩ := Option.ne_none_iff_exists'.mp loaded
  have object : l.object = some ⟨addr, l.world.vnet, os⟩ := by
    rw [Life.object, some_object]
    rfl
  obtain ⟨log, _⟩ := h.loaded _ object
  obtain rfl := h.closed no_file
  have unloads := moduleStop_unloads ⟨addr, l.world.vnet, os⟩
  rw [object]
  refine ⟨unloads.safe, ?_, Nat.zero_le _, ?_, fun _ => ?_, fun v object => ?_⟩
  · simp only [Life.after, unloads.gsVnet]
    exact h.session
  · simp only [Life.after, unloads.gsVnet]
    exact h.device
  · simp only [Life.after, unloads.gsVnet]
    rw [accounts_append, log]
    exact ⟨no_file, unloads.log⟩
  · simp only [Life.object, Life.after, unloads.gsVnet, Option.map_none, reduceCtorEq] at object

/-- The object after a call on the loaded driver says that the same is held. -/
theorem same_loaded (h : Living l xs) {t : Life} (gsVnet : t.gsVnet = l.gsVnet)
    (log : t.log = l.log) (same : SameObject l.world t.world) (v : VnetObject)
    (object : t.object = some v) : accounts [] t.log = some v.holds ∧ v.vnet.cfg = loadCfg := by
  rw [Life.object, gsVnet] at object
  obtain ⟨⟨addr, os⟩, some_object, rfl⟩ := Option.map_eq_some_iff.mp object
  have before : l.object = some ⟨addr, l.world.vnet, os⟩ := by
    rw [Life.object, some_object]
    rfl
  obtain ⟨held, cfg⟩ := h.loaded _ before
  refine ⟨?_, same.cfg.trans cfg⟩
  rw [log, held]
  simp only [VnetObject.holds, same.added]

theorem call_inv {c : SessionCall} (moved : l.call arch c = some t) :
    l.gsVnet ≠ none ∧ ∃ s, sessionStep arch l.session c = some s ∧ t = { l with session := s } := by
  simp only [Life.call, Option.ite_none_left_eq_some, Bool.not_eq_true] at moved
  obtain ⟨some_object, moved⟩ := moved
  obtain ⟨s, stepped, rfl⟩ := Option.map_eq_some_iff.mp moved
  refine ⟨fun gone => ?_, s, stepped, rfl⟩
  rw [gone] at some_object
  cases some_object

/-- A call on the loaded driver other than an open. -/
theorem call_living (h : Living l xs) {c : SessionCall} (moved : l.call arch c = some t)
    (other : ∀ alloc register, c ≠ .ioDevOpen alloc register)
    (limit : ∀ skb txQueueLen, c = .netDevSend skb txQueueLen → txQueueLen.toNat ≤ 256) :
    ∃ ys, Living t ys := by
  obtain ⟨loaded, s, stepped, rfl⟩ := call_inv moved
  obtain ⟨ys, session⟩ := sessionStep_inSession ⟨xs, h.session⟩ stepped
  obtain ⟨object, growth⟩ := sessionStep_object h.session session stepped
  have files : s.files ≤ l.session.files := by
    rcases sessionStep_files stepped with fewer | ⟨alloc, register, opens⟩
    · exact fewer
    · exact False.elim (other alloc register opens)
  have most : l.session.files ≤ 1 := by
    rcases h.session.device with ⟨no_file, _⟩ | ⟨one_file, _⟩ <;> omega
  refine ⟨ys, h.safe, session, ?_, fun one_file => h.device ?_, fun gone => absurd gone loaded,
    same_loaded h rfl rfl object⟩
  · have bound := h.bound
    rcases growth with fewer | ⟨skb, txQueueLen, sends, accepts, one_more⟩
    · omega
    · obtain ⟨_, room⟩ := h.session.ledger.represents.below_limit (by omega) accepts
      have := limit skb txQueueLen sends
      omega
  · simp only at one_file
    omega

theorem loadCfg_txQueueLen : (netDevSetup loadCfg).txQueueLen.toNat = 256 := by decide

theorem open_living (h : Living l xs) {alloc : Bool} {register : Int}
    (moved : l.call arch (.ioDevOpen alloc register) = some t) :
    ∃ ys, Living (if l.world.vnet.ioDev.opened = 0 ∧ alloc then
      { t with device := netDevSetup l.world.vnet.cfg } else t) ys := by
  obtain ⟨loaded, s, stepped, rfl⟩ := call_inv moved
  obtain ⟨ys, session⟩ := sessionStep_inSession ⟨xs, h.session⟩ stepped
  obtain ⟨object, growth⟩ := sessionStep_object h.session session stepped
  have bound : ys.length ≤ 256 := by
    have bound := h.bound
    rcases growth with fewer | ⟨skb, txQueueLen, sends, _⟩
    · omega
    · cases sends
  obtain ⟨⟨addr, os⟩, some_object⟩ := Option.ne_none_iff_exists'.mp loaded
  have cfg : l.world.vnet.cfg = loadCfg := by
    refine (h.loaded ⟨addr, l.world.vnet, os⟩ ?_).2
    rw [Life.object, some_object]
    rfl
  refine ⟨ys, ?_⟩
  by_cases setup : l.world.vnet.ioDev.opened = 0 ∧ alloc = true
  · rw [if_pos setup]
    exact ⟨h.safe, session, bound, fun _ => congrArg netDevSetup cfg,
      fun gone => absurd gone loaded, same_loaded h rfl rfl object⟩
  · rw [if_neg setup]
    refine ⟨h.safe, session, bound, fun one_file => h.device ?_, fun gone => absurd gone loaded,
      same_loaded h rfl rfl object⟩
    -- no device was set up: the device was open before, or alloc_netdev failed
    rcases h.session.device with ⟨no_file, idle⟩ | ⟨one_before, _⟩
    · have failed : alloc = false := by
        cases alloc with
        | false => rfl
        | true => exact False.elim (setup ⟨idle.opened, rfl⟩)
      subst failed
      have refused : -ENOMEM ≠ 0 := by decide
      simp only [sessionStep, ioDevOpen_unallocated idle, Option.map_some, if_neg refused,
        Option.some.injEq] at stepped
      subst stepped
      exact one_file
    · exact one_before

theorem through_living (h : Living l xs) {w : World} (moved : l.through w = some t)
    (mem : w.mem = l.world.mem) (queue : w.queue = l.world.queue) (same : SameDevice l.world w)
    (up : w.kernel.up = l.world.kernel.up) (object : SameObject l.world w) : Living t xs := by
  simp only [Life.through, Option.ite_none_left_eq_some, Option.some.injEq] at moved
  obtain ⟨loaded, rfl⟩ := moved
  refine ⟨h.safe, h.session.through mem queue same up, h.bound, h.device, fun gone => ?_,
    same_loaded h rfl rfl object⟩
  simp only at gone
  simp [gone] at loaded

theorem step_living (h : Living l xs) {a : LifeAction}
    (memory : ∀ env, a = .moduleStart env → env.kmalloc ≠ none) (moved : l.step arch a = some t) :
    ∃ ys, Living t ys := by
  simp only [Life.step, h.safe, Bool.false_eq_true, if_false] at moved
  cases a with
  | moduleStart env =>
    simp only [Option.ite_none_left_eq_some, Option.some.injEq, Bool.not_eq_true,
      Option.isSome_eq_false_iff, Option.isNone_iff_eq_none] at moved
    obtain ⟨unloaded, rfl⟩ := moved
    exact ⟨[], load_living h unloaded (memory env rfl)⟩
  | moduleStop =>
    simp only [Option.ite_none_left_eq_some, Option.some.injEq, Bool.or_eq_true,
      Option.isNone_iff_eq_none, decide_eq_true_eq, not_or, not_not] at moved
    obtain ⟨⟨loaded, no_file⟩, rfl⟩ := moved
    exact ⟨[], unload_living h loaded no_file⟩
  | ioDevOpen alloc register =>
    obtain ⟨u, called, rfl⟩ := Option.map_eq_some_iff.mp moved
    exact open_living h called
  | netDevSend skb =>
    simp only [Option.ite_none_left_eq_some] at moved
    obtain ⟨registered, moved⟩ := moved
    have device := h.device (h.session.registered_iff.mp registered)
    rw [device] at moved
    refine call_living h moved (fun _ _ => by simp) fun skb' txQueueLen same => ?_
    obtain ⟨_, rfl⟩ := SessionCall.netDevSend.inj same
    exact Nat.le_of_eq loadCfg_txQueueLen
  | ioWriteFromIovec iv len env =>
    obtain ⟨mem, queue, same, up, object⟩ := write_through arch l.world iv len env
    exact ⟨xs, through_living h moved mem queue same up object⟩
  | cancelPendingRead =>
    exact ⟨xs, through_living h moved rfl rfl ⟨rfl, rfl, rfl, rfl, rfl, rfl⟩ rfl ⟨rfl, rfl⟩⟩
  | ioDevClose | netDevOpen | netDevClose | ioReadToIovec iv len env =>
    exact call_living h moved (fun _ _ => by simp) fun _ _ same => by cases same

end Step

/-- In every state of every life of the driver whose loads get memory for the
object: no NULL gs_vnet was followed; each net device is settled or the one in
use; each buffer passed to the driver is freed or queued, and at most 256 are
queued; and without the module no file is open, nothing is held, no device is left,
the queue is empty and every buffer that was passed is freed. -/
theorem driver_life_balanced (arch : Arch) (l₀ l : Life) (actions : List LifeAction)
    (fresh : l₀.Fresh) (memory : ∀ env, .moduleStart env ∈ actions → env.kmalloc ≠ none)
    (h : Execution.run (Life.step arch) l₀ actions = some l) :
    l.oops = false ∧ (accounts [] l.log).isSome ∧
    (∀ dev, Settled dev (l.world.history dev) ∨
      l.session.files ≠ 0 ∧ dev = l.world.vnet.netDev.device ∧
        l.world.history dev = [.alloc dev, .register dev]) ∧
    (∃ xs, Represents l.world.mem l.world.queue xs ∧ xs.length ≤ 256 ∧
      (l.session.files = 0 → xs = []) ∧
      ∀ x, xs.count x + l.world.mem.freed.count x = l.session.tx.passed.count x) ∧
    (l.session.files ≠ 0 → l.device = netDevSetup loadCfg) ∧
    (l.gsVnet = none → l.session.files = 0 ∧ accounts [] l.log = some [] ∧
      l.world.kernel.registered = NULL ∧ (∀ dev, Settled dev (l.world.history dev)) ∧
      Represents l.world.mem l.world.queue [] ∧
      ∀ x, l.world.mem.freed.count x = l.session.tx.passed.count x) := by
  have allocates : Execution.Meets (Life.step arch)
      (fun _ a => ∀ env, a = .moduleStart env → env.kmalloc ≠ none) l₀ actions :=
    Execution.meets_of_forall (fun a ha env same => memory env (by rwa [← same])) l₀
  obtain ⟨xs, living⟩ := Execution.run_guarded_invariant (fun l => ∃ xs, Living l xs)
    (fun _ _ _ ⟨_, living⟩ memory moved => step_living living memory moved)
    ⟨[], fresh_living fresh⟩ allocates h
  have device := living.session.device
  refine ⟨living.safe, ?_, living.session.devices, ⟨xs, living.session.ledger.represents,
    living.bound, living.closed, living.session.ledger.count⟩, fun some_file => ?_, fun gone => ?_⟩
  · cases object : l.object with
    | none =>
      rw [(living.unloaded (Option.map_eq_none_iff.mp object)).2]
      rfl
    | some v =>
      rw [(living.loaded v object).1]
      rfl
  · exact living.device (living.session.files_le some_file).1
  · obtain ⟨no_file, log⟩ := living.unloaded gone
    rcases device with ⟨_, idle⟩ | ⟨one_file, _⟩
    · have represents := living.session.ledger.represents
      have count := living.session.ledger.count
      rw [living.closed no_file] at represents count
      simp only [List.count_nil, Nat.zero_add] at count
      exact ⟨no_file, log, idle.registered, idle.settled, represents, count⟩
    · omega

def unloadedLife : Life :=
  ⟨idleSession, none, [], false, ⟨0, 0, 0, 0, []⟩⟩

theorem unloadedLife_fresh : unloadedLife.Fresh := ⟨idleSession_fresh, rfl, rfl, rfl⟩

/-- A load that fails, and one whose driver is opened, sent a packet that is
flushed when the file is closed, and unloaded. -/
def twoLoads : List LifeAction :=
  [.moduleStart (loadEnv (some 4096) (.error outOfMemory)),
    .moduleStart (loadEnv (some 4096) (.ok 12288)), .ioDevOpen true 0, .netDevOpen,
    .netDevSend 1, .cancelPendingRead, .ioDevClose, .moduleStop]

theorem driver_life_balanced_twoLoads :
    ∃ l, Execution.run (Life.step lp64) unloadedLife twoLoads = some l ∧
      l.gsVnet = none ∧ l.session.tx.passed = [1] ∧ accounts [] l.log = some [] ∧
      l.world.mem.freed.count 1 = 1 := by
  have outcome : (Execution.run (Life.step lp64) unloadedLife twoLoads).map
      (fun l => (l.gsVnet, l.session.tx.passed)) = some (none, [1]) := by decide +kernel
  obtain ⟨l, runs, ended⟩ := Option.map_eq_some_iff.mp outcome
  obtain ⟨gone, passed⟩ := Prod.mk.inj ended
  obtain ⟨_, _, _, _, _, unloaded⟩ := driver_life_balanced lp64 unloadedLife l twoLoads
    unloadedLife_fresh (by simp [twoLoads, loadEnv]) runs
  obtain ⟨_, log, _, _, _, freed⟩ := unloaded gone
  exact ⟨l, runs, gone, passed, log, by rw [freed, passed, List.count_singleton_self]⟩

end Kvnet
