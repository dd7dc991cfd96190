import Kvnet.IoDev

/-!
# The userspace library

libkvnet keeps three globals and drives either the character device or a TAP
device. What a system call answers is an argument; of the character device only
what the driver itself does not decide. User memory is that of the world, and
the caller's errno is an argument wherever a status word is made of it.
-/

namespace Kvnet

def lowHalf : UInt32 := 0xffff

/-- KVNET_MAKE_STATUS -/
def kvnetMakeStatus (errno status : UInt32) : UInt32 :=
  (errno &&& lowHalf) ||| ((status &&& lowHalf) <<< 16)

/-- KVNET_STATUS -/
def kvnetStatus (l : UInt32) : UInt32 := (l >>> 16) &&& lowHalf

def KVNET_NO_ERROR : UInt32 := 0x0000
def KVNET_ERROR_ALREADY_OPENED : UInt32 := 0x0002
def KVNET_OPEN_DEVICE_ERROR : UInt32 := 0x0003
def KVNET_NOT_OPENED : UInt32 := 0x0004
def KVNET_INVALID_PARAMETER : UInt32 := 0x0005
def KVNET_READ_ERROR : UInt32 := 0x0006
def KVNET_READ_CANCELLED : UInt32 := 0x0007
def KVNET_WRITE_ERROR : UInt32 := 0x0009
def KVNET_IOCTL_ERROR : UInt32 := 0x000a
def KVNET_SELECT_ERROR : UInt32 := 0x000d

def EINTR : UInt32 := 4

theorem lowHalf_and (x : UInt32) : (x &&& lowHalf).toNat = x.toNat % 2 ^ 16 := by
  rw [UInt32.toNat_and]
  exact Nat.and_two_pow_sub_one_eq_mod x.toNat 16

/-- The status is read back whatever errno is. -/
theorem kvnetStatus_make (errno status : UInt32) :
    kvnetStatus (kvnetMakeStatus errno status) = status &&& lowHalf := by
  have high : ((status &&& lowHalf) <<< 16).toNat = (status.toNat % 2 ^ 16) <<< 16 := by
    rw [UInt32.toNat_shiftLeft, lowHalf_and]
    simp [Nat.shiftLeft_eq]
    omega
  have word : (kvnetMakeStatus errno status).toNat =
      (status.toNat % 2 ^ 16) <<< 16 + errno.toNat % 2 ^ 16 := by
    rw [kvnetMakeStatus, UInt32.toNat_or, high, lowHalf_and, Nat.or_comm,
      Nat.shiftLeft_add_eq_or_of_lt (Nat.mod_lt _ (by decide))]
  refine UInt32.toNat_inj.mp ?_
  rw [kvnetStatus, lowHalf_and, lowHalf_and, UInt32.toNat_shiftRight, word]
  simp [Nat.shiftRight_eq_div_pow, Nat.shiftLeft_eq]
  omega

/-- The globals of the library. -/
structure Lib where
  fdesc : Int
  canceled : Int32
  useTapDev : Int32
  deriving DecidableEq

def Lib.init : Lib := ⟨-1, 0, 0⟩

/-- What open, TUNSETIFF and the kernel answer during kvnet_open; the calls that
set the MTU of the TAP device are not looked at. -/
structure OpenEnv where
  errno : UInt32
  fd : Nat
  opens : Bool
  tunSetIff : Bool
  alloc : Bool
  register : Int
  fuel : Nat

/-- kvnet_open: the status word, the globals and the world after it. -/
def kvnetOpen (l : Lib) (w : World) (useTap : Int32) (env : OpenEnv) :
    Option (UInt32 × Lib × World) :=
  if l.fdesc ≠ -1 then some (kvnetMakeStatus env.errno KVNET_ERROR_ALREADY_OPENED, l, w)
  else if useTap ≠ 0 then
    if env.opens = false then
      some (kvnetMakeStatus env.errno KVNET_OPEN_DEVICE_ERROR, { l with fdesc := -1 }, w)
    else if env.tunSetIff = false then
      some (kvnetMakeStatus env.errno KVNET_IOCTL_ERROR, { l with fdesc := -1 }, w)
    else
      some (kvnetMakeStatus env.errno KVNET_NO_ERROR, ⟨env.fd, 0, useTap⟩, w)
  else if env.opens = false then
    some (kvnetMakeStatus env.errno KVNET_OPEN_DEVICE_ERROR, { l with fdesc := -1 }, w)
  else
    (ioDevOpen env.fuel env.alloc env.register w).map fun (ret, w) =>
      if ret ≠ 0 then
        (kvnetMakeStatus env.errno KVNET_OPEN_DEVICE_ERROR, { l with fdesc := -1 }, w)
      else
        (kvnetMakeStatus env.errno KVNET_NO_ERROR, ⟨env.fd, 0, useTap⟩, w)

/-- An open that does not succeed leaves the globals alone, and with a handle
already open the world too. -/
theorem kvnetOpen_fails {l l' : Lib} {w w' : World} {useTap : Int32} {env : OpenEnv}
    {status : UInt32} (result : kvnetOpen l w useTap env = some (status, l', w'))
    (failed : kvnetStatus status ≠ KVNET_NO_ERROR) : l' = l ∧ (l.fdesc ≠ -1 → w' = w) := by
  unfold kvnetOpen at result
  by_cases opened : l.fdesc ≠ -1
  · simp only [if_pos opened, Option.some.injEq, Prod.mk.injEq] at result
    exact ⟨result.2.1.symm, fun _ => result.2.2.symm⟩
  · have closed : { l with fdesc := -1 } = l := by rw [← not_not.mp opened]
    refine ⟨?_, fun h => False.elim (opened h)⟩
    simp only [if_neg opened] at result
    split at result
    · split at result
      · exact (by simpa [closed] using result : _ ∧ l = l' ∧ _).2.1.symm
      split at result
      · exact (by simpa [closed] using result : _ ∧ l = l' ∧ _).2.1.symm
      · obtain ⟨rfl, _⟩ : kvnetMakeStatus env.errno KVNET_NO_ERROR = status ∧ _ := by
          simpa using result
        exact False.elim (failed (kvnetStatus_make _ _))
    split at result
    · exact (by simpa [closed] using result : _ ∧ l = l' ∧ _).2.1.symm
    · obtain ⟨⟨ret, v⟩, _, result⟩ := Option.map_eq_some_iff.mp result
      by_cases refused : ret ≠ 0
      · simp only [if_pos refused, Prod.mk.injEq] at result
        exact (result.2.1.symm.trans closed)
      · simp only [if_neg refused, Prod.mk.injEq] at result
        obtain ⟨rfl, _⟩ := result
        exact False.elim (failed (kvnetStatus_make _ _))

/-- An open that succeeds sets the three of them. -/
theorem kvnetOpen_opens {l l' : Lib} {w w' : World} {useTap : Int32} {env : OpenEnv}
    {status : UInt32} (result : kvnetOpen l w useTap env = some (status, l', w'))
    (ok : kvnetStatus status = KVNET_NO_ERROR) : l' = ⟨env.fd, 0, useTap⟩ := by
  have failed {e : UInt32} (other : e &&& lowHalf ≠ KVNET_NO_ERROR)
      (same : kvnetMakeStatus env.errno e = status) : l' = ⟨env.fd, 0, useTap⟩ := by
    rw [← same, kvnetStatus_make] at ok
    exact absurd ok other
  unfold kvnetOpen at result
  split at result
  · exact failed (by decide) (congrArg Prod.fst (Option.some.inj result))
  split at result
  · split at result
    · exact failed (by decide) (congrArg Prod.fst (Option.some.inj result))
    split at result
    · exact failed (by decide) (congrArg Prod.fst (Option.some.inj result))
    · exact (congrArg (fun r => r.2.1) (Option.some.inj result)).symm
  split at result
  · exact failed (by decide) (congrArg Prod.fst (Option.some.inj result))
  · obtain ⟨⟨ret, v⟩, _, result⟩ := Option.map_eq_some_iff.mp result
    by_cases refused : ret ≠ 0
    · simp only [if_pos refused] at result
      exact failed (by decide) (congrArg Prod.fst result)
    · simp only [if_neg refused] at result
      exact (congrArg (fun r => r.2.1) result).symm

/-- kvnet_close -/
def kvnetClose (l : Lib) (w : World) (errno : UInt32) (fuel : Nat) :
    Option (UInt32 × Lib × World) :=
  if l.fdesc = -1 then some (kvnetMakeStatus errno KVNET_NOT_OPENED, l, w)
  else
    (if l.useTapDev ≠ 0 then some w else ioDevClose fuel w).map fun w =>
      (kvnetMakeStatus errno KVNET_NO_ERROR, { l with fdesc := -1 }, w)

theorem kvnetClose_closes {l l' : Lib} {w w' : World} {errno : UInt32} {fuel : Nat}
    {status : UInt32} (result : kvnetClose l w errno fuel = some (status, l', w')) :
    l' = { l with fdesc := -1 } := by
  unfold kvnetClose at result
  by_cases closed : l.fdesc = -1
  · simp only [if_pos closed, Option.some.injEq, Prod.mk.injEq] at result
    rw [← result.2.1, ← closed]
  · simp only [if_neg closed] at result
    obtain ⟨v, _, result⟩ := Option.map_eq_some_iff.mp result
    simp only [Prod.mk.injEq] at result
    exact result.2.1.symm

/-- kvnet_cancel_read. `ok` is whether the ioctl reaches the driver. -/
def kvnetCancelRead (l : Lib) (w : World) (errno : UInt32) (ok : Bool) : UInt32 × Lib × World :=
  if l.useTapDev ≠ 0 then
    (kvnetMakeStatus errno KVNET_NO_ERROR, { l with canceled := 1 }, w)
  else if l.fdesc = -1 then (kvnetMakeStatus errno KVNET_INVALID_PARAMETER, l, w)
  else if ok = false then (kvnetMakeStatus errno KVNET_IOCTL_ERROR, l, w)
  else (kvnetMakeStatus errno KVNET_NO_ERROR, l, cancelPendingRead w)

/-- The parameter check of kvnet_read and kvnet_write. -/
def validArguments (arch : Arch) (l : Lib) (hdr : Addr) (len : UInt32) : Bool :=
  !(l.fdesc = -1 || hdr = NULL || len.toNat < arch.sizeofHeader)

/-- What poll returns: an error, a timeout, or the returned events. -/
inductive PollOutcome where
  | fail (errno : UInt32)
  | timeout
  | ready (revents : Nat)
  deriving DecidableEq

def errorEvents : Nat := POLLERR ||| POLLHUP ||| POLLNVAL

/-- The events kvnet_read asks for and those poll always reports. -/
def polledEvents : Nat := POLLIN ||| errorEvents

/-- What poll can return. The driver decides its own events, and its poll has no
timeout; a closed descriptor never becomes ready. -/
def PollOutcome.Possible (l : Lib) (w : World) : PollOutcome → Prop
  | .fail _ => True
  | .timeout => l.useTapDev ≠ 0
  | .ready revents => l.fdesc ≠ -1 ∧
      (l.useTapDev ≠ 0 ∨ revents = ioDevPoll w &&& polledEvents ∧ revents ≠ 0)

instance (l : Lib) (w : World) : (outcome : PollOutcome) → Decidable (outcome.Possible l w)
  | .fail _ => isTrue trivial
  | .timeout => inferInstanceAs (Decidable (_ ≠ _))
  | .ready _ => inferInstanceAs (Decidable (_ ∧ (_ ∨ _ ∧ _)))

/-- What the read system call answers: on TAP the frame it takes, or none for an
error; on the driver the environment of the driver's read. -/
structure DataEnv where
  frame : Option (List UInt8)
  driver : ReadEnv

/-- hdr->pkt[i], read wherever it is. -/
def packetSlot (arch : Arch) (user : UserMem) (hdr : Addr) (i : Int) : Addr :=
  leNat (loadBytes user (arch.toSizeT (hdr + 4 + i * arch.ptrSize)) arch.ptrSize)

/-- A TAP read fills the first packet and writes its length and a count of one. -/
def tapFill (arch : Arch) (user : UserMem) (hdr : Addr) (frame : List UInt8) : UserMem :=
  let pkt := packetSlot arch user hdr 0
  let bytes := frame.take (loadU32 user pkt).toNat
  let user := storeBytes user (pkt + 4) bytes
  storeU32 (storeU32 user pkt (UInt32.ofNat bytes.length)) hdr 1

/-- The end of one round of the loop in kvnet_read: the status word, or none to
try again; the world after it; and the packets taken from the device. -/
structure RoundResult where
  status : Option UInt32
  world : World
  taken : Nat

/-- One round of kvnet_read from its try_again label on. -/
def kvnetReadRound (arch : Arch) (l : Lib) (w : World) (hdr : Addr) (len errno : UInt32)
    (outcome : PollOutcome) (data : DataEnv) : RoundResult :=
  match outcome with
  | .ready revents =>
    if revents &&& errorEvents ≠ 0 then
      ⟨some (kvnetMakeStatus errno KVNET_READ_CANCELLED), w, 0⟩
    else if revents &&& POLLIN ≠ 0 then
      if l.useTapDev ≠ 0 then
        match data.frame with
        | none => ⟨some (kvnetMakeStatus errno KVNET_READ_ERROR), w, 0⟩
        | some frame =>
          ⟨some (kvnetMakeStatus errno KVNET_NO_ERROR),
            w.withUser (tapFill arch w.user hdr frame), 1⟩
      else
        -- kvnet_open opens the device with O_NONBLOCK
        let r := ioDevAioRead arch w [⟨hdr, len.toNat⟩] true data.driver
        let taken := r.world.mem.freed.length - w.mem.freed.length
        if r.ret < 0 then ⟨some (kvnetMakeStatus errno KVNET_READ_ERROR), r.world, taken⟩
        else ⟨some (kvnetMakeStatus errno KVNET_NO_ERROR), r.world, taken⟩
    else ⟨some (kvnetMakeStatus errno KVNET_SELECT_ERROR), w, 0⟩
  | .timeout =>
    if l.useTapDev ≠ 0 then
      if l.canceled ≠ 0 then ⟨some (kvnetMakeStatus errno KVNET_READ_CANCELLED), w, 0⟩
      else ⟨none, w, 0⟩
    else ⟨some (kvnetMakeStatus errno KVNET_SELECT_ERROR), w, 0⟩
  | .fail e =>
    if e = EINTR then ⟨none, w, 0⟩ else ⟨some (kvnetMakeStatus e KVNET_SELECT_ERROR), w, 0⟩

/-- One poll of kvnet_read and what follows it. -/
structure ReadRound where
  outcome : PollOutcome
  data : DataEnv
  errno : UInt32

/-- The rounds of kvnet_read; none if it has not returned after them. -/
def kvnetReadRounds (arch : Arch) (l : Lib) (hdr : Addr) (len : UInt32) :
    World → List ReadRound → Option (UInt32 × World)
  | _, [] => none
  | w, r :: rounds =>
    let result := kvnetReadRound arch l w hdr len r.errno r.outcome r.data
    match result.status with
    | some status => some (status, result.world)
    | none => kvnetReadRounds arch l hdr len result.world rounds

/-- kvnet_read on its own: the status word and the world after it. -/
def kvnetRead (arch : Arch) (l : Lib) (w : World) (hdr : Addr) (len errno : UInt32)
    (rounds : List ReadRound) : Option (UInt32 × World) :=
  if validArguments arch l hdr len = false then
    some (kvnetMakeStatus errno KVNET_INVALID_PARAMETER, w)
  else kvnetReadRounds arch l hdr len w rounds

/-- The TAP loop of kvnet_write, n packets from index i on: the frames written
and whether all were. The source indexes the slots with an int. -/
def tapWriteLoop (arch : Arch) (user : UserMem) (hdr : Addr) (fails : Nat → Bool) :
    Nat → Nat → List (List UInt8) × Bool
  | 0, _ => ([], true)
  | n + 1, i =>
    if fails i then ([], false)
    else
      let pkt := packetSlot arch user hdr (toCInt i)
      let (frames, ok) := tapWriteLoop arch user hdr fails n (i + 1)
      (loadBytes user (pkt + 4) (loadU32 user pkt).toNat :: frames, ok)

/-- kvnet_write: the status word, the world after it, and the frames given to TAP. -/
def kvnetWrite (arch : Arch) (l : Lib) (w : World) (hdr : Addr) (len errno : UInt32)
    (fails : Nat → Bool) (driver : WriteEnv) : UInt32 × World × List (List UInt8) :=
  if validArguments arch l hdr len = false then
    (kvnetMakeStatus errno KVNET_INVALID_PARAMETER, w, [])
  else if l.useTapDev ≠ 0 then
    let (frames, ok) := tapWriteLoop arch w.user hdr fails (loadU32 w.user hdr).toNat 0
    (kvnetMakeStatus errno (if ok then KVNET_NO_ERROR else KVNET_WRITE_ERROR), w, frames)
  else
    let r := ioDevAioWrite arch w [⟨hdr, len.toNat⟩] true driver
    (kvnetMakeStatus errno (if r.ret < 0 then KVNET_WRITE_ERROR else KVNET_NO_ERROR), r.world, [])

/-- kvnet_get_driver_info. `mac` is what kvnet_get_mac finds, if anything. -/
def kvnetGetDriverInfo (l : Lib) (w : World) (info : Addr) (errno : UInt32)
    (mac : Option (List UInt8)) (fault : Option GetInfoFault) : UInt32 × World :=
  if l.useTapDev ≠ 0 then
    if info = NULL then (kvnetMakeStatus errno KVNET_INVALID_PARAMETER, w)
    else
      let user := storeU32 (storeU32 w.user info KVNET_MAJOR_VERSION) (info + 4) KVNET_MINOR_VERSION
      (kvnetMakeStatus errno KVNET_NO_ERROR, w.withUser (storeBytes user (info + 8) (mac.getD [])))
  else if l.fdesc = -1 ∨ info = NULL then (kvnetMakeStatus errno KVNET_INVALID_PARAMETER, w)
  else
    let (ret, w) := getInfo w info fault
    (kvnetMakeStatus errno (if ret ≠ 0 then KVNET_IOCTL_ERROR else KVNET_NO_ERROR), w)

end Kvnet
