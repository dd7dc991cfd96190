import Kvnet.Lifecycle
import Kvnet.Execution
import Kvnet.Pool

/-!
# Opens that race

io_dev_open tests `opened`, runs net_dev_add and only then sets the flag. Here
every access to `opened`, to the device pointer and to `added`, and every kernel
call, is a step of its own, and any number of calls take their steps in any
order. An address stands for one net device through the whole run. The interface
stays down, so no unregister_netdev has a queue to drain.
-/

namespace Kvnet

/-- Who called net_dev_remove: a net_dev_add that failed with `ret`, or io_dev_close. -/
inductive Remover where
  | rollback (ret : Int)
  | close
  deriving DecidableEq

/-- Where a call is. The names up to `setAdded` and from `removeTest` to
`clearAdded` are those of net_dev_add and net_dev_remove; a pointer read for a
kernel call stands beside the call. -/
inductive OpenPc where
  | testOpened
  | alloc
  | storeDevice (device : Addr)
  | testDevice
  | loadRegister
  | register (device : Addr)
  | setAdded
  | setOpened
  | clearCanceled
  | succeeded
  | failed (ret : Int)
  | removeTest (caller : Remover)
  | removeAdded (caller : Remover)
  | loadUnregister (caller : Remover)
  | unregister (caller : Remover) (device : Addr)
  | loadFree (caller : Remover)
  | free (caller : Remover) (device : Addr)
  | clearDevice (caller : Remover)
  | clearAdded (caller : Remover)
  | clearOpened
  | closed
  deriving DecidableEq

/-- What the kernel answers: whether alloc_netdev finds memory, and the code of
register_netdev. -/
structure KernelEnv where
  alloc : Bool
  register : Int

/-- Where net_dev_remove returns to. -/
def Remover.done : Remover → OpenPc
  | .rollback ret => .failed ret
  | .close => .clearOpened

namespace OpenPc

/-- One step of a call. register_netdev succeeds only while no device named
kvnet is registered. -/
def next (w : World) (env : KernelEnv) : OpenPc → Option (World × OpenPc)
  | .testOpened => some (w, if w.vnet.ioDev.opened ≠ 0 then .failed (-EACCES) else .alloc)
  | .alloc =>
    let (device, w) := allocNetdev w env.alloc
    some (w, .storeDevice device)
  | .storeDevice device => some (w.withDevice device, .testDevice)
  | .testDevice =>
    some (w, if w.vnet.netDev.device = NULL then .removeTest (.rollback (-ENOMEM))
      else .loadRegister)
  | .loadRegister => some (w, .register w.vnet.netDev.device)
  | .register device =>
    if env.register = 0 ∧ w.kernel.registered ≠ NULL then none
    else
      let (ret, w) := registerNetdev w device env.register
      some (w, if ret ≠ 0 then .removeTest (.rollback ret) else .setAdded)
  | .setAdded => some (w.withAdded 1, .setOpened)
  | .setOpened => some (w.withIoDev { w.vnet.ioDev with opened := 1 }, .clearCanceled)
  | .clearCanceled => some (w.withIoDev { w.vnet.ioDev with canceled := 0 }, .succeeded)
  | .removeTest caller =>
    some (w, if w.vnet.netDev.device ≠ NULL then .removeAdded caller else caller.done)
  | .removeAdded caller =>
    some (w, if w.vnet.netDev.added ≠ 0 then .loadUnregister caller else .loadFree caller)
  | .loadUnregister caller => some (w, .unregister caller w.vnet.netDev.device)
  | .unregister caller device => (unregisterNetdev 0 w device).map fun w => (w, .loadFree caller)
  | .loadFree caller => some (w, .free caller w.vnet.netDev.device)
  | .free caller device => some (freeNetdev w device, .clearDevice caller)
  | .clearDevice caller => some (w.withDevice NULL, .clearAdded caller)
  | .clearAdded caller => some (w.withAdded 0, caller.done)
  | .clearOpened => some (w.withIoDev { w.vnet.ioDev with opened := 0 }, .closed)
  | .succeeded | .failed _ | .closed => none

/-- The open has succeeded and its close has not returned. -/
def isOpen : OpenPc → Bool
  | .succeeded | .clearOpened => true
  | .removeTest caller | .removeAdded caller | .loadUnregister caller | .unregister caller _
  | .loadFree caller | .free caller _ | .clearDevice caller | .clearAdded caller =>
    caller = .close
  | _ => false

/-- The call is about to store the device pointer alloc_netdev returned. -/
def stores : OpenPc → Bool
  | .storeDevice _ => true
  | _ => false

/-- The call has stored its device pointer, and has neither failed nor been closed since. -/
def live : OpenPc → Bool
  | .testOpened | .alloc | .storeDevice _ | .failed _ | .closed => false
  | _ => true

end OpenPc

/-- alloc_netdev has returned the device and free_netdev has not had it yet. -/
def World.Allocated (w : World) (dev : Addr) : Prop :=
  .alloc dev ∈ w.kernel.netdevs ∧ .free dev ∉ w.kernel.netdevs

instance (w : World) (dev : Addr) : Decidable (w.Allocated dev) :=
  inferInstanceAs (Decidable (_ ∧ _))

/-- The device whose pointer this step overwrites while it is still allocated. -/
def OpenPc.loses (w : World) : OpenPc → List Addr
  | .storeDevice _ | .clearDevice _ =>
    if w.vnet.netDev.device ≠ NULL ∧ w.Allocated w.vnet.netDev.device then [w.vnet.netDev.device]
    else []
  | _ => []

/-- The device this step unregisters although it is not registered. -/
def OpenPc.strays (w : World) : OpenPc → List Addr
  | .unregister _ device => if device ≠ NULL ∧ w.kernel.registered = device then [] else [device]
  | _ => []

/-- The calls made so far, in the order of their entry. `lost` and `stray` are
the devices whose pointer was overwritten too early, and those unregistered
without being registered. -/
structure OpenSys where
  world : World
  calls : List OpenPc
  lost : List Addr
  stray : List Addr

inductive OpenAction where
  | ioDevOpen
  | ioDevClose (k : Nat)
  | call (k : Nat) (env : KernelEnv)

namespace OpenSys

def enter (s : OpenSys) : OpenSys := { s with calls := s.calls ++ [.testOpened] }

/-- A file that was opened is closed once. -/
def close (s : OpenSys) (k : Nat) : Option OpenSys :=
  if s.calls[k]? = some .succeeded then
    some { s with calls := s.calls.set k (.removeTest .close) }
  else none

def call (s : OpenSys) (k : Nat) (env : KernelEnv) : Option OpenSys :=
  match s.calls[k]? with
  | some p =>
    (p.next s.world env).map fun (w, q) =>
      { world := w
        calls := s.calls.set k q
        lost := s.lost ++ p.loses s.world
        stray := s.stray ++ p.strays s.world }
  | none => none

def step (s : OpenSys) : OpenAction → Option OpenSys
  | .ioDevOpen => some s.enter
  | .ioDevClose k => s.close k
  | .call k env => s.call k env

/-- The driver with no file open and nobody in it. -/
structure Fresh (s : OpenSys) : Prop where
  idle : Idle s.world
  calls : s.calls = []
  lost : s.lost = []
  stray : s.stray = []

/-- One open at a time, no pointer overwritten too early, and no device
unregistered that was not registered. -/
structure Exclusive (s : OpenSys) : Prop where
  one : ∀ (i j : Nat) (p q : OpenPc), s.calls[i]? = some p → s.calls[j]? = some q →
    p.isOpen = true → q.isOpen = true → i = j
  kept : s.lost = []
  registered : s.stray = []

/-- A device pointer is stored only while no other call is between its own store
and its failure or close. -/
def StoresAlone (s : OpenSys) : OpenAction → Prop
  | .call k _ => ∀ p ∈ s.calls[k]?, p.stores = true → ∀ q ∈ s.calls, q.live = false
  | _ => True

instance (s : OpenSys) (a : OpenAction) : Decidable (s.StoresAlone a) :=
  match a with
  | .call k _ =>
    inferInstanceAs
      (Decidable (∀ p ∈ s.calls[k]?, p.stores = true → ∀ q ∈ s.calls, q.live = false))
  | .ioDevOpen | .ioDevClose _ => isTrue trivial

end OpenSys

/-- The steps of one call alone. -/
def callStep (c : World × OpenPc) (env : KernelEnv) : Option (World × OpenPc) := c.2.next c.1 env

section Alone

variable {w w' : World} {p q : OpenPc}

/-- A call that nobody interrupts moves as it would alone. -/
theorem call_alone {envs : List KernelEnv}
    (h : Execution.run callStep (w, p) envs = some (w', q)) {s : OpenSys} {k : Nat}
    (world : s.world = w) (found : s.calls[k]? = some p) :
    ∃ t, Execution.run OpenSys.step s (envs.map fun env => .call k env) = some t ∧
      t.world = w' ∧ t.calls = s.calls.set k q := by
  induction envs generalizing w p s with
  | nil =>
    obtain ⟨rfl, rfl⟩ := Prod.mk.inj (Option.some.inj h)
    obtain ⟨before, after, split, set, _⟩ := Pool.split_at found
    exact ⟨s, rfl, world, by rw [set, split]⟩
  | cons env envs ih =>
    obtain ⟨⟨v, r⟩, moves, rest⟩ := Execution.run_cons_some h
    have moves' : p.next s.world env = some (v, r) := by
      rw [world]
      exact moves
    have step : s.step (.call k env) = some
        { world := v
          calls := s.calls.set k r
          lost := s.lost ++ p.loses s.world
          stray := s.stray ++ p.strays s.world } := by
      simp only [OpenSys.step, OpenSys.call, found, moves', Option.map_some]
    have inside := (List.getElem?_eq_some_iff.mp found).1
    obtain ⟨t, ht, world', calls⟩ :=
      ih rest (s := ⟨v, s.calls.set k r, _, _⟩) rfl (List.getElem?_set_self inside)
    refine ⟨t, by rw [List.map_cons, Execution.run_cons step, ht], world', ?_⟩
    rw [calls, List.set_set]

/-- A first stretch of steps, then the rest. -/
theorem replicate_alone {n m : Nat} {env : KernelEnv} {c : World × OpenPc}
    (first : Execution.run callStep (w, p) (List.replicate n env) = some c) :
    Execution.run callStep (w, p) (List.replicate (n + m) env) =
      Execution.run callStep c (List.replicate m env) := by
  rw [List.replicate_add, Execution.run_append, first, Option.bind_some]

/-- The end of net_dev_remove, from the read of the pointer for free_netdev on. -/
theorem free_alone (w : World) (caller : Remover) (env : KernelEnv) :
    Execution.run callStep (w, .loadFree caller) (List.replicate 4 env) =
      some (((freeNetdev w w.vnet.netDev.device).withDevice NULL).withAdded 0, caller.done) :=
  rfl

/-- net_dev_remove, from its test to where it returns to. -/
theorem remove_alone (w : World) (caller : Remover) (env : KernelEnv) :
    ∃ n, Execution.run callStep (w, .removeTest caller) (List.replicate n env) =
      (netDevRemove 0 w).map fun w => (w, caller.done) := by
  by_cases null : w.vnet.netDev.device = NULL
  · refine ⟨1, ?_⟩
    simp [Execution.run, callStep, OpenPc.next, netDevRemove, null]
  by_cases added : w.vnet.netDev.added = 0
  · have tested : Execution.run callStep (w, .removeTest caller) (List.replicate 2 env) =
        some (w, .loadFree caller) := by
      simp [List.replicate_succ, Execution.run, callStep, OpenPc.next, null, added]
    refine ⟨2 + 4, ?_⟩
    rw [replicate_alone tested, free_alone]
    simp [netDevRemove, null, added]
  · have loaded : Execution.run callStep (w, .removeTest caller) (List.replicate 3 env) =
        some (w, .unregister caller w.vnet.netDev.device) := by
      simp [List.replicate_succ, Execution.run, callStep, OpenPc.next, null, added]
    cases unregistered : unregisterNetdev 0 w w.vnet.netDev.device with
    | none =>
      refine ⟨3 + 1, ?_⟩
      rw [replicate_alone loaded]
      simp [Execution.run, callStep, OpenPc.next, netDevRemove, null, added, unregistered]
    | some v =>
      have removed : Execution.run callStep (w, .removeTest caller) (List.replicate (3 + 1) env) =
          some (v, .loadFree caller) := by
        rw [replicate_alone loaded]
        simp [Execution.run, callStep, OpenPc.next, unregistered]
      refine ⟨3 + 1 + 4, ?_⟩
      rw [replicate_alone removed, free_alone]
      simp [netDevRemove, null, added, unregistered]

/-- What the caller of io_dev_open sees. -/
def openOutcome (ret : Int) : OpenPc := if ret = 0 then .succeeded else .failed ret

/-- A failed net_dev_add from its rollback to the return of io_dev_open. -/
theorem rollback_alone (w : World) {ret : Int} (failed : ret ≠ 0) (env : KernelEnv) :
    ∃ n, Execution.run callStep (w, .removeTest (.rollback ret)) (List.replicate n env) =
      (netDevRemove 0 w).map fun w => (w, openOutcome ret) := by
  obtain ⟨n, hn⟩ := remove_alone w (.rollback ret) env
  exact ⟨n, by rw [hn, openOutcome, if_neg failed, Remover.done]⟩

theorem open_alone (w : World) (env : KernelEnv)
    (named : w.kernel.registered ≠ NULL → env.register ≠ 0) :
    ∃ n, Execution.run callStep (w, .testOpened) (List.replicate n env) =
      (ioDevOpen 0 env.alloc env.register w).map fun (ret, w) => (w, openOutcome ret) := by
  by_cases opened : w.vnet.ioDev.opened ≠ 0
  · refine ⟨1, ?_⟩
    have refused : openOutcome (-EACCES) = .failed (-EACCES) := rfl
    simp [Execution.run, callStep, OpenPc.next, ioDevOpen, opened, refused]
  have registered : (allocNetdev w env.alloc).2.kernel.registered = w.kernel.registered := by
    cases env.alloc with
    | false => rfl
    | true => rfl
  rcases hv : allocNetdev w env.alloc with ⟨device, v⟩
  rw [hv] at registered
  have entered : Execution.run callStep (w, .testOpened) (List.replicate 3 env) =
      some (v.withDevice device, .testDevice) := by
    simp [List.replicate_succ, Execution.run, callStep, OpenPc.next, opened, hv]
  by_cases null : device = NULL
  · have first : Execution.run callStep (w, .testOpened) (List.replicate (3 + 1) env) =
        some (v.withDevice device, .removeTest (.rollback (-ENOMEM))) := by
      rw [replicate_alone entered]
      simp [Execution.run, callStep, OpenPc.next, null, World.withDevice]
    have nonzero : -ENOMEM ≠ 0 := by decide
    obtain ⟨n, hn⟩ := rollback_alone (v.withDevice device) nonzero env
    refine ⟨3 + 1 + n, ?_⟩
    rw [replicate_alone first, hn]
    simp [ioDevOpen, opened, netDevAdd, hv, null, nonzero, Function.comp_def]
  by_cases failed : env.register ≠ 0
  · have first : Execution.run callStep (w, .testOpened) (List.replicate (3 + 3) env) =
        some (v.withDevice device, .removeTest (.rollback env.register)) := by
      rw [replicate_alone entered]
      simp [List.replicate_succ, Execution.run, callStep, OpenPc.next, null, World.withDevice,
        registerNetdev, failed]
    obtain ⟨n, hn⟩ := rollback_alone (v.withDevice device) failed env
    refine ⟨3 + 3 + n, ?_⟩
    rw [replicate_alone first, hn]
    simp [ioDevOpen, opened, netDevAdd, hv, null, registerNetdev, failed, Function.comp_def]
  · have ok : env.register = 0 := not_not.mp failed
    have unnamed : v.kernel.registered = NULL := by
      rw [registered]
      by_contra taken
      exact failed (named taken)
    refine ⟨3 + 6, ?_⟩
    rw [replicate_alone entered]
    simp [List.replicate_succ, Execution.run, callStep, OpenPc.next, null, World.withDevice,
      registerNetdev, ok, unnamed, ioDevOpen, opened, netDevAdd, hv, openOutcome, World.withIoDev,
      World.withAdded]

theorem close_alone (w : World) (env : KernelEnv) :
    ∃ n, Execution.run callStep (w, .removeTest .close) (List.replicate n env) =
      (ioDevClose 0 w).map fun w => (w, .closed) := by
  obtain ⟨n, hn⟩ := remove_alone w .close env
  refine ⟨n + 1, ?_⟩
  rw [List.replicate_add, Execution.run_append, hn, ioDevClose]
  cases netDevRemove 0 w with
  | none => rfl
  | some v => rfl

end Alone

/-- An open that nobody interrupts does what io_dev_open does. -/
theorem open_uninterrupted {s : OpenSys} {env : KernelEnv} {ret : Int} {w : World}
    (named : s.world.kernel.registered ≠ NULL → env.register ≠ 0)
    (h : ioDevOpen 0 env.alloc env.register s.world = some (ret, w)) :
    ∃ n t, Execution.run OpenSys.step s
        (.ioDevOpen :: List.replicate n (.call s.calls.length env)) = some t ∧
      t.world = w ∧ t.calls = s.calls ++ [openOutcome ret] := by
  obtain ⟨n, hn⟩ := open_alone s.world env named
  rw [h, Option.map_some] at hn
  obtain ⟨t, ht, world, calls⟩ :=
    call_alone hn (s := s.enter) rfl (Pool.last_found s.calls .testOpened)
  refine ⟨n, t, ?_, world, ?_⟩
  · rw [List.map_replicate] at ht
    exact ht
  · rw [calls]
    exact Pool.last_set s.calls .testOpened _

/-- A close that nobody interrupts does what io_dev_close does. -/
theorem close_uninterrupted {s : OpenSys} {k : Nat} {w : World} (env : KernelEnv)
    (found : s.calls[k]? = some .succeeded) (h : ioDevClose 0 s.world = some w) :
    ∃ n t, Execution.run OpenSys.step s (.ioDevClose k :: List.replicate n (.call k env)) =
        some t ∧ t.world = w ∧ t.calls = s.calls.set k .closed := by
  obtain ⟨n, hn⟩ := close_alone s.world env
  rw [h, Option.map_some] at hn
  have inside := (List.getElem?_eq_some_iff.mp found).1
  have begins : s.step (.ioDevClose k) =
      some { s with calls := s.calls.set k (.removeTest .close) } := if_pos found
  obtain ⟨t, ht, world, calls⟩ := call_alone hn
    (s := { s with calls := s.calls.set k (.removeTest .close) }) rfl
    (List.getElem?_set_self inside)
  refine ⟨n, t, ?_, world, ?_⟩
  · rw [Execution.run_cons begins, ← ht, List.map_replicate]
  · rw [calls, List.set_set]

/-- The shared flags and the registered device, with the interface down. -/
structure Flags (w : World) (opened added : Int32) (registered : Addr) : Prop where
  opened : w.vnet.ioDev.opened = opened
  added : w.vnet.netDev.added = added
  registered : w.kernel.registered = registered
  down : w.kernel.up = false

/-- No call owns the device. -/
structure Quiet (w : World) : Prop where
  flags : Flags w 0 0 NULL
  device : w.vnet.netDev.device = NULL

namespace Remover

/-- The flags net_dev_remove finds. -/
def opened : Remover → Int32
  | .rollback _ => 0
  | .close => 1

def added : Remover → Int32
  | .rollback _ => 0
  | .close => 1

def registered (w : World) : Remover → Addr
  | .rollback _ => NULL
  | .close => w.vnet.netDev.device

end Remover

/-- What the call that owns the device finds in the shared state. -/
def Owns (w : World) : OpenPc → Prop
  | .testDevice => Flags w 0 0 NULL
  | .loadRegister => Flags w 0 0 NULL ∧ w.vnet.netDev.device ≠ NULL
  | .register device =>
    Flags w 0 0 NULL ∧ w.vnet.netDev.device ≠ NULL ∧ device = w.vnet.netDev.device
  | .setAdded => Flags w 0 0 w.vnet.netDev.device ∧ w.vnet.netDev.device ≠ NULL
  | .setOpened => Flags w 0 1 w.vnet.netDev.device ∧ w.vnet.netDev.device ≠ NULL
  | .clearCanceled | .succeeded =>
    Flags w 1 1 w.vnet.netDev.device ∧ w.vnet.netDev.device ≠ NULL
  | .removeTest caller =>
    Flags w caller.opened caller.added (caller.registered w) ∧
      (caller = .close → w.vnet.netDev.device ≠ NULL)
  | .removeAdded caller =>
    Flags w caller.opened caller.added (caller.registered w) ∧ w.vnet.netDev.device ≠ NULL
  | .loadUnregister caller =>
    Flags w caller.opened caller.added w.vnet.netDev.device ∧ w.vnet.netDev.device ≠ NULL
  | .unregister caller device =>
    Flags w caller.opened caller.added device ∧ w.vnet.netDev.device ≠ NULL ∧
      device = w.vnet.netDev.device
  | .loadFree caller => Flags w caller.opened caller.added NULL ∧ w.vnet.netDev.device ≠ NULL
  | .free caller device =>
    Flags w caller.opened caller.added NULL ∧ device = w.vnet.netDev.device
  | .clearDevice caller =>
    Flags w caller.opened caller.added NULL ∧
      .free w.vnet.netDev.device ∈ w.kernel.netdevs
  | .clearAdded caller =>
    Flags w caller.opened caller.added NULL ∧ w.vnet.netDev.device = NULL
  | .clearOpened => Flags w 1 0 NULL ∧ w.vnet.netDev.device = NULL
  | .testOpened | .alloc | .storeDevice _ | .failed _ | .closed => True

/-- What the calls that do not own the device leave alone. -/
structure Untouched (w w' : World) : Prop where
  opened : w'.vnet.ioDev.opened = w.vnet.ioDev.opened
  added : w'.vnet.netDev.added = w.vnet.netDev.added
  device : w'.vnet.netDev.device = w.vnet.netDev.device
  registered : w'.kernel.registered = w.kernel.registered
  up : w'.kernel.up = w.kernel.up
  netdevs : w.kernel.netdevs ⊆ w'.kernel.netdevs

theorem Untouched.refl (w : World) : Untouched w w :=
  ⟨rfl, rfl, rfl, rfl, rfl, List.Subset.refl _⟩

section Frame

variable {w w' : World}

theorem Untouched.flags (same : Untouched w w') {opened added : Int32} {registered : Addr}
    (h : Flags w opened added registered) : Flags w' opened added registered :=
  ⟨same.opened.trans h.opened, same.added.trans h.added, same.registered.trans h.registered,
    same.up.trans h.down⟩

theorem Untouched.quiet (same : Untouched w w') (h : Quiet w) : Quiet w' :=
  ⟨same.flags h.flags, same.device.trans h.device⟩

theorem Untouched.owns (same : Untouched w w') {p : OpenPc} (h : Owns w p) : Owns w' p := by
  have found (caller : Remover) : caller.registered w' = caller.registered w := by
    cases caller with
    | rollback ret => rfl
    | close => exact same.device
  cases p with
  | testOpened | alloc | storeDevice | failed | closed => exact trivial
  | testDevice => exact same.flags h
  | clearDevice caller =>
    obtain ⟨flags, freed⟩ := h
    have freed' : NetdevEvent.free w'.vnet.netDev.device ∈ w'.kernel.netdevs := by
      rw [same.device]
      exact same.netdevs freed
    exact ⟨same.flags flags, freed'⟩
  | _ =>
    simp only [Owns, same.device, found] at h ⊢
    exact ⟨same.flags h.1, h.2⟩

end Frame

/-- The call keeps the device, or gives it up with no trace left. -/
def Passes (w : World) (q : OpenPc) : Prop :=
  q.live = true ∧ Owns w q ∨ q.live = false ∧ Quiet w

theorem done_passes {w : World} {caller : Remover} (flags : Flags w caller.opened 0 NULL)
    (device : w.vnet.netDev.device = NULL) : Passes w caller.done := by
  cases caller with
  | rollback ret => exact Or.inr ⟨rfl, flags, device⟩
  | close => exact Or.inl ⟨rfl, flags, device⟩

theorem removeTest_passes {w w' : World} {q : OpenPc} {caller : Remover} {env : KernelEnv}
    (owns : Owns w (.removeTest caller))
    (h : (OpenPc.removeTest caller).next w env = some (w', q)) : Passes w' q := by
  obtain ⟨flags, valid⟩ := owns
  obtain ⟨rfl, rfl⟩ := Prod.mk.inj (Option.some.inj h)
  by_cases null : w.vnet.netDev.device = NULL
  · rw [if_neg (not_not.mpr null)]
    cases caller with
    | rollback ret => exact Or.inr ⟨rfl, flags, null⟩
    | close => exact absurd null (valid rfl)
  · rw [if_pos null]
    exact Or.inl ⟨rfl, flags, null⟩

theorem removeAdded_passes {w w' : World} {q : OpenPc} {caller : Remover} {env : KernelEnv}
    (owns : Owns w (.removeAdded caller))
    (h : (OpenPc.removeAdded caller).next w env = some (w', q)) : Passes w' q := by
  obtain ⟨flags, valid⟩ := owns
  obtain ⟨rfl, rfl⟩ := Prod.mk.inj (Option.some.inj h)
  cases caller with
  | rollback ret =>
    have notAdded : ¬ w.vnet.netDev.added ≠ 0 := not_not.mpr flags.added
    rw [if_neg notAdded]
    exact Or.inl ⟨rfl, flags, valid⟩
  | close =>
    have added : w.vnet.netDev.added ≠ 0 := by
      rw [flags.added]
      decide
    rw [if_pos added]
    exact Or.inl ⟨rfl, flags, valid⟩

theorem register_passes {w w' : World} {q : OpenPc} {device : Addr} {env : KernelEnv}
    (owns : Owns w (.register device))
    (h : (OpenPc.register device).next w env = some (w', q)) : Passes w' q := by
  obtain ⟨flags, valid, rfl⟩ := owns
  have free : ¬ (env.register = 0 ∧ w.kernel.registered ≠ NULL) :=
    fun taken => taken.2 flags.registered
  simp only [OpenPc.next, if_neg free] at h
  obtain ⟨rfl, rfl⟩ := Prod.mk.inj (Option.some.inj h)
  by_cases ok : env.register = 0
  · simp only [registerNetdev, if_pos ok]
    exact Or.inl ⟨rfl, ⟨flags.opened, flags.added, rfl, rfl⟩, valid⟩
  · simp only [registerNetdev, if_neg ok, if_pos (show env.register ≠ 0 from ok)]
    exact Or.inl ⟨rfl, flags, fun none_close => by cases none_close⟩

theorem unregister_passes {w w' : World} {q : OpenPc} {caller : Remover} {device : Addr}
    {env : KernelEnv} (owns : Owns w (.unregister caller device))
    (h : (OpenPc.unregister caller device).next w env = some (w', q)) : Passes w' q := by
  obtain ⟨flags, valid, rfl⟩ := owns
  have notUp : ¬ w.kernel.up = true := by
    rw [flags.down]
    decide
  simp only [OpenPc.next, unregisterNetdev, if_neg notUp, Option.map_some] at h
  obtain ⟨rfl, rfl⟩ := Prod.mk.inj (Option.some.inj h)
  exact Or.inl ⟨rfl, ⟨flags.opened, flags.added, rfl, rfl⟩, valid⟩

/-- A step of the call that owns the device. -/
theorem owner_passes {w w' : World} {p q : OpenPc} {env : KernelEnv} (live : p.live = true)
    (owns : Owns w p) (h : p.next w env = some (w', q)) : Passes w' q := by
  cases p with
  | testOpened | alloc | storeDevice | failed | closed => cases live
  | succeeded => cases h
  | register device => exact register_passes owns h
  | removeTest caller => exact removeTest_passes owns h
  | removeAdded caller => exact removeAdded_passes owns h
  | unregister caller device => exact unregister_passes owns h
  | testDevice =>
    obtain ⟨rfl, rfl⟩ := Prod.mk.inj (Option.some.inj h)
    by_cases null : w.vnet.netDev.device = NULL
    · rw [if_pos null]
      exact Or.inl ⟨rfl, owns, fun none_close => by cases none_close⟩
    · rw [if_neg null]
      exact Or.inl ⟨rfl, owns, null⟩
  | loadRegister =>
    obtain ⟨rfl, rfl⟩ := Prod.mk.inj (Option.some.inj h)
    exact Or.inl ⟨rfl, owns.1, owns.2, rfl⟩
  | loadUnregister caller =>
    obtain ⟨rfl, rfl⟩ := Prod.mk.inj (Option.some.inj h)
    exact Or.inl ⟨rfl, owns.1, owns.2, rfl⟩
  | loadFree caller =>
    obtain ⟨rfl, rfl⟩ := Prod.mk.inj (Option.some.inj h)
    exact Or.inl ⟨rfl, owns.1, rfl⟩
  | setAdded =>
    obtain ⟨rfl, rfl⟩ := Prod.mk.inj (Option.some.inj h)
    obtain ⟨flags, valid⟩ := owns
    exact Or.inl ⟨rfl, ⟨flags.opened, rfl, flags.registered, flags.down⟩, valid⟩
  | setOpened =>
    obtain ⟨rfl, rfl⟩ := Prod.mk.inj (Option.some.inj h)
    obtain ⟨flags, valid⟩ := owns
    exact Or.inl ⟨rfl, ⟨rfl, flags.added, flags.registered, flags.down⟩, valid⟩
  | clearCanceled =>
    obtain ⟨rfl, rfl⟩ := Prod.mk.inj (Option.some.inj h)
    obtain ⟨flags, valid⟩ := owns
    exact Or.inl ⟨rfl, ⟨flags.opened, flags.added, flags.registered, flags.down⟩, valid⟩
  | free caller device =>
    obtain ⟨rfl, rfl⟩ := Prod.mk.inj (Option.some.inj h)
    obtain ⟨flags, rfl⟩ := owns
    refine Or.inl ⟨rfl, ⟨flags.opened, flags.added, flags.registered, flags.down⟩, ?_⟩
    exact List.mem_append.mpr (Or.inr (List.mem_singleton.mpr rfl))
  | clearDevice caller =>
    obtain ⟨rfl, rfl⟩ := Prod.mk.inj (Option.some.inj h)
    obtain ⟨flags, _⟩ := owns
    exact Or.inl ⟨rfl, ⟨flags.opened, flags.added, flags.registered, flags.down⟩, rfl⟩
  | clearAdded caller =>
    obtain ⟨rfl, rfl⟩ := Prod.mk.inj (Option.some.inj h)
    obtain ⟨flags, device⟩ := owns
    exact done_passes ⟨flags.opened, rfl, flags.registered, flags.down⟩ device
  | clearOpened =>
    obtain ⟨rfl, rfl⟩ := Prod.mk.inj (Option.some.inj h)
    obtain ⟨flags, device⟩ := owns
    exact Or.inr ⟨rfl, ⟨rfl, flags.added, flags.registered, flags.down⟩, device⟩

/-- The owner overwrites a pointer only after the device is freed. -/
theorem owner_loses {w : World} {p : OpenPc} (live : p.live = true) (owns : Owns w p) :
    p.loses w = [] := by
  cases p with
  | storeDevice => cases live
  | clearDevice caller => exact if_neg fun early => early.2.2 owns.2
  | _ => rfl

theorem owner_strays {w : World} {p : OpenPc} (owns : Owns w p) : p.strays w = [] := by
  cases p with
  | unregister caller device =>
    obtain ⟨flags, valid, rfl⟩ := owns
    exact if_pos ⟨valid, flags.registered⟩
  | _ => rfl

/-- A step of a call that has not stored its pointer yet. -/
theorem outsider_untouched {w w' : World} {p q : OpenPc} {env : KernelEnv} (out : p.live = false)
    (waits : p.stores = false) (h : p.next w env = some (w', q)) :
    q.live = false ∧ Untouched w w' ∧ p.loses w = [] ∧ p.strays w = [] := by
  cases p with
  | testOpened =>
    obtain ⟨rfl, rfl⟩ := Prod.mk.inj (Option.some.inj h)
    refine ⟨?_, Untouched.refl w, rfl, rfl⟩
    by_cases opened : w.vnet.ioDev.opened ≠ 0
    · rw [if_pos opened]
      rfl
    · rw [if_neg opened]
      rfl
  | alloc =>
    obtain ⟨rfl, rfl⟩ := Prod.mk.inj (Option.some.inj h)
    refine ⟨rfl, ?_, rfl, rfl⟩
    cases env.alloc with
    | false => exact Untouched.refl w
    | true => exact ⟨rfl, rfl, rfl, rfl, rfl, List.subset_append_left _ _⟩
  | storeDevice device => cases waits
  | failed | closed => cases h
  | _ => cases out

/-- A pointer is stored while nobody owns a device. -/
theorem store_passes {w w' : World} {p q : OpenPc} {env : KernelEnv} (stores : p.stores = true)
    (quiet : Quiet w) (h : p.next w env = some (w', q)) :
    (q.live = true ∧ Owns w' q) ∧ p.loses w = [] ∧ p.strays w = [] := by
  cases p with
  | storeDevice device =>
    obtain ⟨rfl, rfl⟩ := Prod.mk.inj (Option.some.inj h)
    obtain ⟨flags, null⟩ := quiet
    refine ⟨⟨rfl, flags.opened, flags.added, flags.registered, flags.down⟩, ?_, rfl⟩
    exact if_neg fun early => early.1 null
  | _ => cases stores

namespace OpenSys

/-- At most one call owns the device, and the shared state is as its owner, or
nobody, left it. -/
structure Orderly (s : OpenSys) : Prop where
  quiet : (∀ p ∈ s.calls, p.live = false) → Quiet s.world
  owner : ∀ p ∈ s.calls, p.live = true → Owns s.world p
  alone : ∀ (i j : Nat) (p q : OpenPc), s.calls[i]? = some p → s.calls[j]? = some q →
    p.live = true → q.live = true → i = j
  kept : s.lost = []
  registered : s.stray = []

theorem fresh_orderly {s : OpenSys} (fresh : s.Fresh) : s.Orderly := by
  obtain ⟨idle, calls, lost, stray⟩ := fresh
  constructor
  · intro _
    exact ⟨⟨idle.opened, idle.added, idle.registered, idle.down⟩, idle.device⟩
  · intro p hp
    rw [calls] at hp
    cases hp
  · intro i j p q hi
    rw [calls] at hi
    cases hi
  · exact lost
  · exact stray

/-- A successful open that is not closed yet owns the device. -/
theorem open_live {p : OpenPc} (h : p.isOpen = true) : p.live = true := by
  cases p with
  | testOpened | alloc | storeDevice | failed | closed => cases h
  | _ => rfl

theorem orderly_exclusive {s : OpenSys} (h : s.Orderly) : s.Exclusive :=
  ⟨fun i j p q hi hj hp hq => h.alone i j p q hi hj (open_live hp) (open_live hq), h.kept,
    h.registered⟩

section Steps

variable {s : OpenSys} {k : Nat} {p q : OpenPc} {w : World}

/-- While no other call owns the device, one call moves and keeps it or gives it up. -/
theorem orderly_owner (found : s.calls[k]? = some p)
    (others : ∀ (i : Nat) (r : OpenPc), i ≠ k → s.calls[i]? = some r → r.live = false)
    (passes : Passes w q) {lost stray : List Addr} (kept : lost = []) (registered : stray = []) :
    Orderly ⟨w, s.calls.set k q, lost, stray⟩ := by
  have only : ∀ (i : Nat) (r : OpenPc), (s.calls.set k q)[i]? = some r → r.live = true →
      i = k ∧ r = q := by
    intro i r hr live
    rcases Pool.get_set hr with mine | ⟨other, old⟩
    · exact mine
    · rw [others i r other old] at live
      cases live
  have mine : q ∈ s.calls.set k q :=
    List.mem_set (List.getElem?_eq_some_iff.mp found).1 q
  constructor
  · intro quiet
    rcases passes with ⟨live, _⟩ | ⟨_, quiet'⟩
    · rw [quiet q mine] at live
      cases live
    · exact quiet'
  · intro r hr live
    obtain ⟨i, hi⟩ := List.mem_iff_getElem?.mp hr
    obtain ⟨_, rfl⟩ := only i r hi live
    rcases passes with ⟨_, owns⟩ | ⟨out, _⟩
    · exact owns
    · rw [out] at live
      cases live
  · intro i j r r' hi hj live live'
    exact (only i r hi live).1.trans (only j r' hj live').1.symm
  · exact kept
  · exact registered

theorem Orderly.others (h : s.Orderly) (found : s.calls[k]? = some p) (live : p.live = true)
    (i : Nat) (r : OpenPc) (other : i ≠ k) (hr : s.calls[i]? = some r) : r.live = false := by
  by_contra both
  exact other (h.alone i k r p hr found (Bool.not_eq_false _ ▸ both) live)

/-- The owner stays the same when no other call comes to own the device. -/
theorem Orderly.carried {t : OpenSys} (h : s.Orderly) (same : Untouched s.world t.world)
    (old : ∀ (i : Nat) (r : OpenPc), t.calls[i]? = some r → r.live = true → s.calls[i]? = some r)
    (out : (∀ r ∈ t.calls, r.live = false) → ∀ r ∈ s.calls, r.live = false)
    (lost : t.lost = s.lost) (stray : t.stray = s.stray) : t.Orderly := by
  constructor
  · intro quiet
    exact same.quiet (h.quiet (out quiet))
  · intro r hr live
    obtain ⟨i, hi⟩ := List.mem_iff_getElem?.mp hr
    exact same.owns (h.owner r (List.mem_of_getElem? (old i r hi live)) live)
  · intro i j r r' hi hj live live'
    exact h.alone i j r r' (old i r hi live) (old j r' hj live') live live'
  · exact lost.trans h.kept
  · exact stray.trans h.registered

/-- A call that owns nothing moves and leaves the device alone. -/
theorem orderly_outsider (h : s.Orderly) (found : s.calls[k]? = some p) (out : p.live = false)
    (out' : q.live = false) (same : Untouched s.world w) :
    Orderly ⟨w, s.calls.set k q, s.lost, s.stray⟩ := by
  refine h.carried same ?_ ?_ rfl rfl
  · intro i r hr live
    rcases Pool.get_set hr with ⟨_, rfl⟩ | ⟨_, old⟩
    · rw [out'] at live
      cases live
    · exact old
  · intro quiet r hr
    obtain ⟨i, hi⟩ := List.mem_iff_getElem?.mp hr
    by_cases mine : k = i
    · subst mine
      obtain rfl : p = r := Option.some.inj (found.symm.trans hi)
      exact out
    · refine quiet r (List.mem_iff_getElem?.mpr ⟨i, ?_⟩)
      rwa [List.getElem?_set_ne mine]

end Steps

theorem enter_orderly {s : OpenSys} (h : s.Orderly) : s.enter.Orderly := by
  refine h.carried (Untouched.refl s.world) ?_ ?_ rfl rfl
  · intro i r hr live
    rcases Pool.get_snoc hr with old | rfl
    · exact old
    · cases live
  · intro quiet r hr
    exact quiet r (List.mem_append.mpr (Or.inl hr))

theorem close_orderly {s t : OpenSys} {k : Nat} (h : s.Orderly) (step : s.close k = some t) :
    t.Orderly := by
  simp only [close, Option.ite_none_right_eq_some, Option.some.injEq] at step
  obtain ⟨found, rfl⟩ := step
  have owns := h.owner .succeeded (List.mem_of_getElem? found) rfl
  have passes : Passes s.world (.removeTest .close) := Or.inl ⟨rfl, owns.1, fun _ => owns.2⟩
  exact orderly_owner found (h.others found rfl) passes h.kept h.registered

theorem call_orderly {s t : OpenSys} {k : Nat} {env : KernelEnv} (h : s.Orderly)
    (alone : s.StoresAlone (.call k env)) (step : s.call k env = some t) : t.Orderly := by
  cases found : s.calls[k]? with
  | none =>
    simp only [call, found] at step
    cases step
  | some p =>
    simp only [call, found] at step
    obtain ⟨⟨w, q⟩, moved, rfl⟩ := Option.map_eq_some_iff.mp step
    by_cases live : p.live = true
    · have owns := h.owner p (List.mem_of_getElem? found) live
      refine orderly_owner found (h.others found live) (owner_passes live owns moved) ?_ ?_
      · rw [h.kept, owner_loses live owns]
        rfl
      · rw [h.registered, owner_strays owns]
        rfl
    have out : p.live = false := Bool.not_eq_true _ ▸ live
    by_cases stores : p.stores = true
    · have nobody := alone p found stores
      obtain ⟨passes, kept, registered⟩ := store_passes stores (h.quiet nobody) moved
      refine orderly_owner found (fun i r _ hr => nobody r (List.mem_of_getElem? hr))
        (Or.inl passes) ?_ ?_
      · rw [h.kept, kept]
        rfl
      · rw [h.registered, registered]
        rfl
    · obtain ⟨out', same, kept, registered⟩ :=
        outsider_untouched out (Bool.not_eq_true _ ▸ stores) moved
      rw [kept, registered, List.append_nil, List.append_nil]
      exact orderly_outsider h found out out' same

theorem step_orderly (s : OpenSys) (a : OpenAction) (t : OpenSys) (h : s.Orderly)
    (alone : s.StoresAlone a) (ht : s.step a = some t) : t.Orderly := by
  cases a with
  | ioDevOpen =>
    obtain rfl := Option.some.inj ht
    exact enter_orderly h
  | ioDevClose k => exact close_orderly h ht
  | call k env => exact call_orderly h alone ht

/-- The device is exclusive in every state of a run in which no call stores its
device pointer while another one is using its own. -/
theorem open_exclusive (s₀ : OpenSys) (actions : List OpenAction) (fresh : s₀.Fresh)
    (alone : Execution.Meets step StoresAlone s₀ actions) :
    Execution.Always step Exclusive s₀ actions :=
  Execution.always_guarded Orderly step_orderly (fun _ => orderly_exclusive) (fresh_orderly fresh)
    alone

/-- The driver loaded, before the first open. -/
def unopenedDevice : OpenSys := ⟨loaded.world, [], [], []⟩

theorem unopenedDevice_fresh : unopenedDevice.Fresh := by
  refine ⟨?_, rfl, rfl, rfl⟩
  exact ⟨rfl, rfl, rfl, rfl, rfl, by decide, fun _ _ => rfl, fun _ => Or.inl rfl⟩

/-- Some steps of call k with a kernel that grants everything. -/
def advance (k n : Nat) : List OpenAction := List.replicate n (.call k ⟨true, 0⟩)

/-- register_netdev fails for call k: the name is taken. -/
def refuse (k : Nat) : OpenAction := .call k ⟨true, -17⟩

/-- Both calls pass the test; the first fails and has returned when the second
stores its pointer. -/
def overlappingTests : List OpenAction :=
  [.ioDevOpen, .ioDevOpen] ++ advance 0 1 ++ advance 1 1 ++ advance 0 4 ++ [refuse 0] ++
    advance 0 6 ++ advance 1 8 ++ [.ioDevClose 1] ++ advance 1 9

theorem open_exclusive_overlapping :
    Execution.Always step Exclusive unopenedDevice overlappingTests :=
  open_exclusive unopenedDevice overlappingTests unopenedDevice_fresh (by decide +kernel)

/-- The second call stores its pointer over that of the first, whose open has
succeeded, and its rollback finds the first one's `added`. -/
def lateStore : List OpenAction :=
  [.ioDevOpen, .ioDevOpen] ++ advance 0 1 ++ advance 1 1 ++ advance 0 8 ++ advance 1 4 ++
    [refuse 1] ++ advance 1 4

/-- The first call, refused by register_netdev, removes the device of the second,
whose open has succeeded; then the third succeeds as well. -/
def threeOpens : List OpenAction :=
  [.ioDevOpen, .ioDevOpen, .ioDevOpen] ++ advance 0 1 ++ advance 1 1 ++ advance 2 1 ++
    advance 0 2 ++ advance 1 8 ++ advance 0 2 ++ [refuse 0] ++ advance 0 8 ++ advance 2 8

/-- In runs from the loaded driver a pointer is lost and a device unregistered
that never was registered, and two opens are successful at once. -/
theorem opens_race : unopenedDevice.Fresh ∧
    (∃ s, Execution.run step unopenedDevice lateStore = some s ∧ s.lost ≠ [] ∧ s.stray ≠ []) ∧
    ∃ s, Execution.run step unopenedDevice threeOpens = some s ∧
      s.calls = [.failed (-17), .succeeded, .succeeded] ∧ ¬ s.Exclusive := by
  have late : (Execution.run step unopenedDevice lateStore).map (fun s => (s.lost, s.stray)) =
      some ([64], [65]) := by decide +kernel
  have three : (Execution.run step unopenedDevice threeOpens).map OpenSys.calls =
      some [.failed (-17), .succeeded, .succeeded] := by decide +kernel
  obtain ⟨s, hs, outcome⟩ := Option.map_eq_some_iff.mp late
  obtain ⟨lost, stray⟩ := Prod.mk.inj outcome
  obtain ⟨t, ht, calls⟩ := Option.map_eq_some_iff.mp three
  refine ⟨unopenedDevice_fresh, ⟨s, hs, ?_, ?_⟩, t, ht, calls, fun exclusive => ?_⟩
  · rw [lost]
    exact List.cons_ne_nil _ _
  · rw [stray]
    exact List.cons_ne_nil _ _
  · have second : t.calls[1]? = some .succeeded := by
      rw [calls]
      rfl
    have third : t.calls[2]? = some .succeeded := by
      rw [calls]
      rfl
    exact absurd (exclusive.one 1 2 _ _ second third rfl rfl) (by decide)

end OpenSys

end Kvnet
