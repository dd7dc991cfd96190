import Kvnet.Vnet
import Kvnet.Execution

/-!
# Loading and unloading the module

module_start builds up the main vnet object and the character device, and
module_stop takes down whatever of it the fields of the object say is there. The
same function serves as the rollback of a module_start that fails. The module is
loaded again and again, and each call of the kernel may fail each time.
-/

namespace Kvnet

/-- A pointer of the kernel, or an error code in its place. -/
inductive KPtr where
  | null
  | err (errno : Int)
  | ptr (a : Addr)
  deriving DecidableEq

/-- IS_ERR. A NULL pointer is not an error. -/
def KPtr.isErr : KPtr → Bool
  | .err _ => true
  | _ => false

/-- struct os_specific_io_dev_data, but for the wait queue. -/
structure IoDevOs where
  majorNumber : Int
  minorNumber : Int
  cls : KPtr
  device : KPtr
  deriving DecidableEq

/-- What gs_vnet points to. -/
structure VnetObject where
  addr : Addr
  vnet : Vnet
  os : IoDevOs
  deriving DecidableEq

inductive Resource where
  | vnet (addr : Addr)
  | region (major minor : Int)
  | cdev (vnet : Addr)
  | cls (cls : KPtr)
  | device (cls : KPtr) (major minor : Int)
  deriving DecidableEq

inductive ResourceEvent where
  | acquire (r : Resource)
  | release (r : Resource)
  deriving DecidableEq

/-- What is held after one more event; none if it acquires what is held already
or releases what is not held. -/
def account (held : List Resource) : ResourceEvent → Option (List Resource)
  | .acquire r => if r ∈ held then none else some (held ++ [r])
  | .release r => if r ∈ held then some (held.erase r) else none

def accounts (held : List Resource) (log : List ResourceEvent) : Option (List Resource) :=
  log.foldlM account held

theorem accounts_append (held : List Resource) (first second : List ResourceEvent) :
    accounts held (first ++ second) =
      (accounts held first).bind fun held => accounts held second :=
  List.foldlM_append

/-- An error code of the kernel. -/
abbrev Errno := { e : Int // e < 0 }

/-- What the kernel answers during one module_start. -/
structure LoadEnv where
  kmalloc : Option Addr
  allocChrdevRegion : Except Errno (Nat × Nat)
  cdevAdd : Option Errno
  classCreate : Except Errno Addr
  deviceCreate : Except Errno Addr

/-- The object kmalloc returned, after memset and queue_init. -/
def zeroVnet (addr : Addr) : VnetObject where
  addr := addr
  vnet :=
    { ioDev := ⟨0, 0, 0⟩
      netDev := ⟨0, 0, ⟨0, 0, 0, 0, 0, 0, 0, 0, 0, 0⟩, queueInit ⟨NULL, NULL, 0, 0⟩, NULL⟩
      cfg := ⟨[0, 0, 0, 0, 0, 0], 0⟩ }
  os := ⟨0, 0, .null, .null⟩

/-- The configuration module_start sets. -/
def loadCfg : Cfg := ⟨[0x44, 0x45, 0x53, 0x54, 0x4f, 0x53], 256⟩

/-- vnet_init: what it returns, gs_vnet after it, and what it acquired. -/
def vnetInit (gsVnet : Option VnetObject) (env : LoadEnv) :
    Int × Option VnetObject × List ResourceEvent :=
  match gsVnet with
  | some v => (-1, some v, [])
  | none =>
    match env.kmalloc with
    | none => (-1, none, [])
    | some addr => (0, some (zeroVnet addr), [.acquire (.vnet addr)])

/-- io_dev_add. The sentinels are set before the first call that may fail. -/
def ioDevAdd (v : VnetObject) (env : LoadEnv) : Int × VnetObject × List ResourceEvent :=
  let v := { v with os := ⟨-1, -1, .err (-ENOMEM), .err (-ENOMEM)⟩ }
  match env.allocChrdevRegion with
  | .error e => (e, v, [])
  | .ok (major, minor) =>
    let v := { v with os := { v.os with majorNumber := major, minorNumber := minor } }
    let log := [.acquire (.region major minor)]
    match env.cdevAdd with
    | some e => (e, v, log)
    | none =>
      let v := { v with vnet := { v.vnet with ioDev := { v.vnet.ioDev with added := 1 } } }
      let log := log ++ [.acquire (.cdev v.addr)]
      match env.classCreate with
      | .error e => (e, { v with os := { v.os with cls := .err e } }, log)
      | .ok c =>
        let v := { v with os := { v.os with cls := .ptr c } }
        let log := log ++ [.acquire (.cls (.ptr c))]
        match env.deviceCreate with
        | .error e => (e, { v with os := { v.os with device := .err e } }, log)
        | .ok d =>
          (0, { v with os := { v.os with device := .ptr d } },
            log ++ [.acquire (.device (.ptr c) major minor)])

/-- io_dev_remove on an object. -/
def ioDevRemove (v : VnetObject) : VnetObject × List ResourceEvent :=
  let (v, log) : VnetObject × List ResourceEvent :=
    if v.os.device.isErr = false then
      ({ v with os := { v.os with device := .err (-ENOMEM) } },
        [.release (.device v.os.cls v.os.majorNumber v.os.minorNumber)])
    else (v, [])
  let (v, log) : VnetObject × List ResourceEvent :=
    if v.os.cls.isErr = false then
      ({ v with os := { v.os with cls := .err (-ENOMEM) } }, log ++ [.release (.cls v.os.cls)])
    else (v, log)
  let (v, log) : VnetObject × List ResourceEvent :=
    if v.vnet.ioDev.added = 1 then
      ({ v with vnet := { v.vnet with ioDev := { v.vnet.ioDev with added := 0 } } },
        log ++ [.release (.cdev v.addr)])
    else (v, log)
  if v.os.majorNumber ≠ -1 then
    ({ v with os := { v.os with majorNumber := -1, minorNumber := -1 } },
      log ++ [.release (.region v.os.majorNumber v.os.minorNumber)])
  else (v, log)

/-- What a call of the module leaves behind; `oops` says that it went through
gs_vnet while that was NULL. -/
structure Outcome where
  gsVnet : Option VnetObject
  log : List ResourceEvent
  oops : Bool

/-- vnet_close; queue_close does not free what is still queued. -/
def vnetClose (gsVnet : Option VnetObject) : List ResourceEvent :=
  match gsVnet with
  | some v => [.release (.vnet v.addr)]
  | none => []

/-- module_stop. An oops in io_dev_remove is where it ends. -/
def moduleStop (gsVnet : Option VnetObject) : Outcome :=
  match gsVnet with
  | none => ⟨none, [], true⟩
  | some v =>
    let (v, log) := ioDevRemove v
    ⟨none, log ++ vnetClose (some v), false⟩

/-- module_start: what it returns, and what it leaves behind. -/
def moduleStart (gsVnet : Option VnetObject) (env : LoadEnv) : Int × Outcome :=
  let rollback (ret : Int) (gsVnet : Option VnetObject) (log : List ResourceEvent) :
      Int × Outcome :=
    let stop := moduleStop gsVnet
    (ret, { stop with log := log ++ stop.log })
  match vnetInit gsVnet env with
  | (0, some v, acquired) =>
    let v := { v with vnet := { v.vnet with cfg := loadCfg } }
    let (ret, v, added) := ioDevAdd v env
    if ret ≠ 0 then rollback ret (some v) (acquired ++ added)
    else (ret, ⟨some v, acquired ++ added, false⟩)
  | (_, gsVnet, acquired) => rollback (-EINVAL) gsVnet acquired

/-- A resource that may be there, by what a field of the object says. -/
def heldIf (there : Bool) (r : Resource) : List Resource := if there then [r] else []

def releasedIf (there : Bool) (r : Resource) : List ResourceEvent :=
  if there then [.release r] else []

/-- What the fields of an object say is held. -/
def VnetObject.holds (v : VnetObject) : List Resource :=
  [.vnet v.addr] ++ heldIf (v.os.majorNumber ≠ -1) (.region v.os.majorNumber v.os.minorNumber) ++
    heldIf (v.vnet.ioDev.added = 1) (.cdev v.addr) ++
    heldIf (!v.os.cls.isErr) (.cls v.os.cls) ++
    heldIf (!v.os.device.isErr) (.device v.os.cls v.os.majorNumber v.os.minorNumber)

/-- The resource acquired last can be released. -/
theorem accounts_released {held : List Resource} {r : Resource} (new : r ∉ held) (there : Bool) :
    accounts (held ++ heldIf there r) (releasedIf there r) = some held := by
  cases there with
  | false => simp [accounts, heldIf, releasedIf]
  | true =>
    have gone : (held ++ [r]).erase r = held := by
      rw [List.erase_append_right _ new, List.erase_cons_head, List.append_nil]
    simp [accounts, account, heldIf, releasedIf, gone]

theorem mem_held {r r' : Resource} {there : Bool} (h : r ∈ heldIf there r') : r = r' := by
  cases there with
  | false => cases h
  | true => exact List.mem_singleton.mp h

/-- Each test of the teardown looks at a field of its own. -/
theorem ioDevRemove_log (v : VnetObject) :
    (ioDevRemove v).1.addr = v.addr ∧ (ioDevRemove v).2 =
      releasedIf (!v.os.device.isErr) (.device v.os.cls v.os.majorNumber v.os.minorNumber) ++
        (releasedIf (!v.os.cls.isErr) (.cls v.os.cls) ++
          (releasedIf (v.vnet.ioDev.added = 1) (.cdev v.addr) ++
            releasedIf (v.os.majorNumber ≠ -1)
              (.region v.os.majorNumber v.os.minorNumber))) := by
  unfold ioDevRemove
  cases device : v.os.device.isErr <;> cases cls : v.os.cls.isErr <;>
    by_cases added : v.vnet.ioDev.added = 1 <;> by_cases region : v.os.majorNumber = -1 <;>
      simp [releasedIf, cls, added, region]

/-- module_stop releases exactly what the object says is held. -/
theorem moduleStop_accounts (v : VnetObject) :
    accounts v.holds (moduleStop (some v)).log = some [] := by
  obtain ⟨addr, removed⟩ := ioDevRemove_log v
  have log : (moduleStop (some v)).log = (ioDevRemove v).2 ++ [.release (.vnet v.addr)] := by
    rw [← addr]
    rfl
  have base : accounts [.vnet v.addr] [.release (.vnet v.addr)] = some [] := by
    simp [accounts, account]
  have apart {r r' : Resource} {there : Bool} (other : r ≠ r') : r ∉ heldIf there r' :=
    fun h => other (mem_held h)
  rw [log, removed, VnetObject.holds, accounts_append, accounts_append,
    accounts_released (by simp [apart]), Option.bind_some, accounts_append,
    accounts_released (by simp [apart]), Option.bind_some, accounts_append,
    accounts_released (by simp [apart]), Option.bind_some,
    accounts_released (by simp), Option.bind_some, base]

/-- io_dev_add leaves behind an object that says what it has acquired. -/
theorem ioDevAdd_accounts (v : VnetObject) (idle : v.vnet.ioDev.added = 0) (env : LoadEnv) :
    (ioDevAdd v env).2.1.addr = v.addr ∧
      accounts [.vnet v.addr] (ioDevAdd v env).2.2 = some (ioDevAdd v env).2.1.holds := by
  have region (major : Nat) : (major : Int) ≠ -1 := by omega
  unfold ioDevAdd
  cases env.allocChrdevRegion with
  | error e => simp [VnetObject.holds, heldIf, accounts, KPtr.isErr, idle]
  | ok dev =>
    cases env.cdevAdd with
    | some e =>
      simp [VnetObject.holds, heldIf, accounts, account, KPtr.isErr, idle, region]
    | none =>
      cases env.classCreate with
      | error e =>
        simp [VnetObject.holds, heldIf, accounts, account, KPtr.isErr, region]
      | ok c =>
        cases env.deviceCreate with
        | error e => simp [VnetObject.holds, heldIf, accounts, account, KPtr.isErr, region]
        | ok d => simp [VnetObject.holds, heldIf, accounts, account, KPtr.isErr, region]

/-- A module_start that finds no memory for the object falls over its rollback. -/
theorem moduleStart_oops {env : LoadEnv} (memory : env.kmalloc = none) :
    (moduleStart none env).2.oops = true := by
  simp only [moduleStart, vnetInit, memory, moduleStop]

/-- What a call leaves behind with nothing loaded. -/
structure Outcome.Unloads (o : Outcome) (held : List Resource) : Prop where
  safe : o.oops = false
  gsVnet : o.gsVnet = none
  log : accounts held o.log = some []

structure Outcome.Loads (o : Outcome) (v : VnetObject) : Prop where
  safe : o.oops = false
  gsVnet : o.gsVnet = some v
  log : accounts [] o.log = some v.holds

theorem moduleStop_unloads (v : VnetObject) : (moduleStop (some v)).Unloads v.holds :=
  ⟨rfl, rfl, moduleStop_accounts v⟩

/-- With memory for the object module_start loads the module or leaves nothing. -/
theorem moduleStart_unloaded {env : LoadEnv} {addr : Addr} (memory : env.kmalloc = some addr) :
    (moduleStart none env).1 ≠ 0 ∧ (moduleStart none env).2.Unloads [] ∨
      (moduleStart none env).1 = 0 ∧ ∃ v, (moduleStart none env).2.Loads v := by
  have created : accounts [] [.acquire (.vnet addr)] = some [.vnet addr] := by
    simp [accounts, account]
  have configured :=
    ioDevAdd_accounts { zeroVnet addr with vnet := { (zeroVnet addr).vnet with cfg := loadCfg } }
      rfl env
  simp only [moduleStart, vnetInit, memory]
  generalize ioDevAdd _ env = added at configured ⊢
  obtain ⟨ret, v, log⟩ := added
  obtain ⟨_, acquired⟩ := configured
  have both : accounts [] ([.acquire (.vnet addr)] ++ log) = some v.holds := by
    rw [accounts_append, created]
    exact acquired
  by_cases failed : ret ≠ 0
  · refine Or.inl ?_
    simp only [if_pos failed]
    refine ⟨failed, rfl, rfl, ?_⟩
    rw [accounts_append, both]
    exact moduleStop_accounts v
  · refine Or.inr ?_
    simp only [if_neg failed]
    exact ⟨not_not.mp failed, v, rfl, rfl, both⟩

/-- Starting a loaded module fails and takes it down. -/
theorem moduleStart_loaded (v : VnetObject) (env : LoadEnv) :
    (moduleStart (some v) env).1 ≠ 0 ∧ (moduleStart (some v) env).2.Unloads v.holds := by
  constructor
  · exact show -EINVAL ≠ 0 by decide
  · exact moduleStop_unloads v

/-- `started` says that the last call was a module_start that succeeded. -/
structure Module where
  gsVnet : Option VnetObject
  started : Bool
  log : List ResourceEvent
  oops : Bool

inductive ModuleAction where
  | start (env : LoadEnv)
  | stop

namespace Module

def fresh : Module := ⟨none, false, [], false⟩

def after (s : Module) (o : Outcome) (started : Bool) : Module :=
  ⟨o.gsVnet, started, s.log ++ o.log, o.oops⟩

/-- The kernel stops a module only after a start that succeeded, and does
nothing more after an oops. -/
def step (s : Module) : ModuleAction → Option Module
  | .start env =>
    if s.oops then none
    else some (s.after (moduleStart s.gsVnet env).2 (decide ((moduleStart s.gsVnet env).1 = 0)))
  | .stop => if s.oops || !s.started then none else some (s.after (moduleStop s.gsVnet) false)

/-- No step went through a NULL gs_vnet; whatever was released had been acquired
and not been released since; and unless the module is loaded nothing is held and
it starts as if for the first time. -/
structure Balanced (s : Module) : Prop where
  safe : s.oops = false
  accounted : (accounts [] s.log).isSome
  unloaded : s.started = false → s.gsVnet = none ∧ accounts [] s.log = some [] ∧
    ∀ env, moduleStart s.gsVnet env = moduleStart none env

/-- A start that has to allocate the object gets the memory for it. -/
def Allocates (s : Module) : ModuleAction → Prop
  | .start env => s.gsVnet = none → env.kmalloc ≠ none
  | .stop => True

/-- Up to an oops the object says what is held. -/
def Coherent (s : Module) : Prop :=
  s.oops = true ∨
    s.oops = false ∧ (s.started = false ∧ s.gsVnet = none ∧ accounts [] s.log = some [] ∨
      s.started = true ∧ ∃ v, s.gsVnet = some v ∧ accounts [] s.log = some v.holds)

theorem balanced_iff {s : Module} (coherent : s.Coherent) : s.Balanced ↔ s.oops = false := by
  constructor
  · exact fun balanced => balanced.safe
  · intro safe
    rcases coherent with oops | ⟨_, ⟨idle, null, log⟩ | ⟨started, v, _, log⟩⟩
    · rw [safe] at oops
      cases oops
    · exact ⟨safe, by rw [log]; rfl, fun _ => ⟨null, log, fun _ => by rw [null]⟩⟩
    · refine ⟨safe, by rw [log]; rfl, fun idle => ?_⟩
      rw [started] at idle
      cases idle

theorem unloads_coherent {s : Module} {o : Outcome} {held : List Resource}
    (before : accounts [] s.log = some held) (unloads : o.Unloads held) :
    (s.after o false).Coherent := by
  refine Or.inr ⟨unloads.safe, Or.inl ⟨rfl, unloads.gsVnet, ?_⟩⟩
  rw [after, accounts_append, before]
  exact unloads.log

theorem start_inv {s t : Module} {env : LoadEnv} (step : s.step (.start env) = some t) :
    s.oops = false ∧
      t = s.after (moduleStart s.gsVnet env).2 (decide ((moduleStart s.gsVnet env).1 = 0)) := by
  simp only [Module.step, Option.ite_none_left_eq_some, Option.some.injEq,
    Bool.not_eq_true] at step
  exact ⟨step.1, step.2.symm⟩

theorem stop_inv {s t : Module} (step : s.step .stop = some t) :
    s.oops = false ∧ s.started = true ∧ t = s.after (moduleStop s.gsVnet) false := by
  simp only [Module.step, Option.ite_none_left_eq_some, Option.some.injEq, Bool.not_eq_true,
    Bool.or_eq_false_iff, Bool.not_eq_false'] at step
  exact ⟨step.1.1, step.1.2, step.2.symm⟩

theorem start_coherent {s t : Module} {env : LoadEnv} (coherent : s.Coherent)
    (step : s.step (.start env) = some t) :
    t.Coherent ∧ (t.oops = false ↔ s.Allocates (.start env)) := by
  obtain ⟨safe, rfl⟩ := start_inv step
  rcases coherent with oops | ⟨_, ⟨_, null, log⟩ | ⟨_, v, object, log⟩⟩
  · rw [safe] at oops
    cases oops
  · rw [null]
    cases memory : env.kmalloc with
    | none =>
      have fallen := moduleStart_oops memory
      refine ⟨Or.inl fallen, iff_of_false ?_ fun allocates => allocates null memory⟩
      rw [show (s.after _ _).oops = _ from fallen]
      decide
    | some addr =>
      have allocates : s.Allocates (.start env) := by
        intro _
        rw [memory]
        exact nofun
      rcases moduleStart_unloaded memory with ⟨failed, unloads⟩ | ⟨ok, v, loads⟩
      · rw [decide_eq_false failed]
        exact ⟨unloads_coherent log unloads, iff_of_true unloads.safe allocates⟩
      · rw [decide_eq_true ok]
        refine ⟨Or.inr ⟨loads.safe, Or.inr ⟨rfl, v, loads.gsVnet, ?_⟩⟩,
          iff_of_true loads.safe allocates⟩
        rw [after, accounts_append, log]
        exact loads.log
  · rw [object]
    obtain ⟨failed, unloads⟩ := moduleStart_loaded v env
    rw [decide_eq_false failed]
    refine ⟨unloads_coherent log unloads, iff_of_true unloads.safe fun null => ?_⟩
    rw [object] at null
    cases null

theorem stop_coherent {s t : Module} (coherent : s.Coherent) (step : s.step .stop = some t) :
    t.Coherent ∧ (t.oops = false ↔ s.Allocates .stop) := by
  obtain ⟨safe, started, rfl⟩ := stop_inv step
  rcases coherent with oops | ⟨_, ⟨idle, _, _⟩ | ⟨_, v, object, log⟩⟩
  · rw [safe] at oops
    cases oops
  · rw [started] at idle
    cases idle
  · rw [object]
    have unloads := moduleStop_unloads v
    exact ⟨unloads_coherent log unloads, iff_of_true unloads.safe trivial⟩

/-- One call keeps the books, and it is safe exactly when it has its memory. -/
theorem step_coherent {s t : Module} {a : ModuleAction} (coherent : s.Coherent)
    (step : s.step a = some t) : t.Coherent ∧ (t.oops = false ↔ s.Allocates a) := by
  cases a with
  | start env => exact start_coherent coherent step
  | stop => exact stop_coherent coherent step

/-- Load and unload balance in every state of a run exactly when each start that
has to allocate the object gets the memory. -/
theorem balanced_run_iff (s : Module) (actions : List ModuleAction)
    (h : Execution.run Module.step fresh actions = some s) :
    Execution.Always Module.step Balanced fresh actions ↔
      Execution.Meets Module.step Allocates fresh actions := by
  have start : fresh.Coherent := Or.inr ⟨rfl, Or.inl ⟨rfl, rfl, rfl⟩⟩
  refine Execution.always_iff_meets Coherent (fun s a t coherent step => ?_)
    (fun s a t coherent _ step => ?_) start ((balanced_iff start).mpr rfl) h
  · exact (step_coherent coherent step).1
  · obtain ⟨after, safe⟩ := step_coherent coherent step
    rw [balanced_iff after, safe]

end Module

/-- A kernel that answers everything until `fails` takes effect. -/
def loadEnv (memory : Option Addr) (device : Except Errno Addr) : LoadEnv :=
  ⟨memory, .ok (250, 0), none, .ok 8192, device⟩

def outOfMemory : Errno := ⟨-ENOMEM, by decide⟩

/-- device_create fails first; the second start succeeds and is stopped. -/
theorem balanced_run_retry :
    Execution.Always Module.step Module.Balanced Module.fresh
      [.start (loadEnv (some 4096) (.error outOfMemory)),
        .start (loadEnv (some 4096) (.ok 12288)), .stop] := by
  have outcome : (Execution.run Module.step Module.fresh
      [.start (loadEnv (some 4096) (.error outOfMemory)),
        .start (loadEnv (some 4096) (.ok 12288)), .stop]).map Module.oops = some false := by
    decide +kernel
  obtain ⟨s, hrun, _⟩ := Option.map_eq_some_iff.mp outcome
  refine (Module.balanced_run_iff s _ hrun).mpr ⟨nofun, fun _ _ => ⟨nofun, fun _ _ => ?_⟩⟩
  exact ⟨trivial, fun _ _ => trivial⟩

/-- No memory for the object: the rollback reads through the NULL pointer. -/
theorem start_without_memory :
    ¬ Execution.Always Module.step Module.Balanced Module.fresh
      [.start (loadEnv none (.ok 12288))] := by
  rintro ⟨_, after⟩
  have balanced : Module.Balanced _ := after _ rfl
  exact absurd balanced.safe (by decide)

end Kvnet
