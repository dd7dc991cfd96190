import Kvnet.NetDev
import Kvnet.IoRead
import Kvnet.IoWrite

/-!
# The character device

Opening and closing the device, its poll and its ioctl. The poll is split at
the points where another thread can run in between: it reads the cancel flag,
registers on the wait queue, and reads the queue length in a lock section.
-/

namespace Kvnet

def POLLIN : Nat := 0x1
def POLLPRI : Nat := 0x2
def POLLOUT : Nat := 0x4
def POLLERR : Nat := 0x8
def POLLHUP : Nat := 0x10
def POLLNVAL : Nat := 0x20
def POLLRDNORM : Nat := 0x40
def POLLWRNORM : Nat := 0x100

def World.withIoDev (w : World) (ioDev : IoDev) : World :=
  { w with vnet := { w.vnet with ioDev := ioDev } }

/-- io_dev_open: the error code and the world after it. -/
def ioDevOpen (fuel : Nat) (alloc : Bool) (register : Int) (w : World) : Option (Int × World) :=
  if w.vnet.ioDev.opened ≠ 0 then some (-EACCES, w)
  else
    (netDevAdd fuel alloc register w).map fun (ret, w) =>
      if ret ≠ 0 then (ret, w)
      else (ret, w.withIoDev { w.vnet.ioDev with opened := 1, canceled := 0 })

/-- io_dev_close -/
def ioDevClose (fuel : Nat) (w : World) : Option World :=
  (netDevRemove fuel w).map fun w => w.withIoDev { w.vnet.ioDev with opened := 0 }

/-- io_dev_iov_total, summed up in an ssize_t. -/
def ioDevIovTotal (arch : Arch) (iv : List Iovec) : Int :=
  iv.foldl (fun len v => arch.toSsizeT (len + v.len)) 0

/-- io_dev_aio_read. `nonblock` is the O_NONBLOCK flag of the file. -/
def ioDevAioRead (arch : Arch) (w : World) (iv : List Iovec) (nonblock : Bool) (env : ReadEnv) :
    IoResult :=
  if nonblock = false then ⟨w, -EINVAL, none⟩
  else if ioDevIovTotal arch iv < 0 then ⟨w, -EINVAL, none⟩
  else ioReadToIovec arch w iv (ioDevIovTotal arch iv) env

/-- io_dev_aio_write -/
def ioDevAioWrite (arch : Arch) (w : World) (iv : List Iovec) (nonblock : Bool) (env : WriteEnv) :
    IoResult :=
  if nonblock = false then ⟨w, -EINVAL, none⟩
  else if ioDevIovTotal arch iv < 0 then ⟨w, -EINVAL, none⟩
  else ioWriteFromIovec arch w iv (ioDevIovTotal arch iv) env

/-- The mask io_dev_poll returns when it finds the device canceled. -/
def canceledMask : Nat := POLLPRI ||| POLLERR

/-- The mask io_dev_poll returns after it has tested the queue. -/
def queueMask (q : Queue) : Nat :=
  let mask := POLLOUT ||| POLLWRNORM
  if queueIsEmpty q = 0 then mask ||| (POLLIN ||| POLLRDNORM) else mask

/-- io_dev_poll, run without interruption. -/
def ioDevPoll (w : World) : Nat :=
  if w.vnet.ioDev.canceled ≠ 0 then canceledMask else queueMask w.queue

/-- io_dev_ioctl with KVNET_IOCTL_CANCEL_PENDING_READ, before its wake-up. -/
def cancelPendingRead (w : World) : World :=
  w.withIoDev { w.vnet.ioDev with canceled := 1 }

def KVNET_MAJOR_VERSION : UInt32 := 2
def KVNET_MINOR_VERSION : UInt32 := 1

/-- The user access of KVNET_IOCTL_GET_INFO that faults. -/
inductive GetInfoFault where
  | major
  | minor
  | hwAddr (copied : Nat)
  deriving DecidableEq

/-- io_dev_ioctl with KVNET_IOCTL_GET_INFO -/
def getInfo (w : World) (info : Addr) (fault : Option GetInfoFault) : Int × World :=
  if fault = some .major then (-EFAULT, w)
  else
    let w := w.withUser (storeU32 w.user info KVNET_MAJOR_VERSION)
    if fault = some .minor then (-EFAULT, w)
    else
      let w := w.withUser (storeU32 w.user (info + 4) KVNET_MINOR_VERSION)
      match fault with
      | some (.hwAddr copied) =>
        (-EFAULT, w.withUser (storeBytes w.user (info + 8) ((w.vnet.cfg.mac.take 6).take copied)))
      | _ => (0, w.withUser (storeBytes w.user (info + 8) (w.vnet.cfg.mac.take 6)))

end Kvnet
