import Kvnet.ByteOrder
import Kvnet.Platform
import Kvnet.Reading
import Kvnet.Trace

/-!
# Dumping frames and packets

The dumpers print the headers at the start of a buffer, each behind a test of
the length, and read them by offset. What they return here is the lines they
trace, in order.
-/

namespace Kvnet

open ByteOrder

inductive TraceArg where
  | str (s : String)
  | num (n : Nat)
  deriving DecidableEq, Repr

/-- A line as it is passed to TRACE. -/
structure TraceLine where
  flag : UInt32
  format : String
  args : List TraceArg
  deriving DecidableEq, Repr

/-- A line that only names the function it comes from. -/
def note (flag : UInt32) (format func : String) : TraceLine := ⟨flag, format, [.str func]⟩

def rawLine (format : String) (args : List Nat) : TraceLine :=
  ⟨LOG_INFO ||| LOG_RAW, format, args.map .num⟩

/-- ntohs of the field at an offset. -/
def loadNet (order : ByteOrder) (at_ : Nat) : Reading Nat UInt8 UInt16 := do
  let first ← Reading.load at_
  let second ← Reading.load (at_ + 1)
  return order.ntohs (order.word first second)

/-- The n bytes of an address field. -/
def loadField (at_ n : Nat) : Reading Nat UInt8 (List Nat) := do
  let bytes ← Reading.loads ((List.range n).map (at_ + ·))
  return bytes.map UInt8.toNat

def IP_OFFSET : UInt16 := 0x1fff

/-- sizeof(struct ethhdr) -/
def sizeofEthhdr : Nat := 14

/-- sizeof(struct arphdr) -/
def sizeofArphdr : Nat := 8

/-- sizeof(struct iphdr) -/
def sizeofIphdr : Nat := 20

/-- The line for the Ethernet header at the start of the frame. -/
def ethLine (order : ByteOrder) : Reading Nat UInt8 TraceLine := do
  let source ← loadField 6 6
  let dest ← loadField 0 6
  let proto ← loadNet order 12
  return rawLine
    "ETH: SRC=%02x:%02x:%02x:%02x:%02x:%02x DST=%02x:%02x:%02x:%02x:%02x:%02x TYPE=%04X\n"
    (source ++ dest ++ [proto.toNat])

/-- The lines for the ARP header behind the Ethernet header, and for the
addresses behind it. -/
def arpLines (order : ByteOrder) : Reading Nat UInt8 (List TraceLine) := do
  let ea := sizeofEthhdr
  let eaEth := ea + sizeofArphdr
  let hrd ← loadNet order ea
  let pro ← loadNet order (ea + 2)
  let hln ← Reading.load (ea + 4)
  let pln ← Reading.load (ea + 5)
  let op ← loadNet order (ea + 6)
  let sha ← loadField eaEth 6
  let sip ← loadField (eaEth + 6) 4
  let tha ← loadField (eaEth + 10) 6
  let tip ← loadField (eaEth + 16) 4
  return [
    rawLine "ARP: HRD=%u PRO=0x%04X HLN=%u PLN=%u OP=%u\n"
      [hrd.toNat, pro.toNat, hln.toNat, pln.toNat, op.toNat],
    rawLine "ARP: SHA=%02x:%02x:%02x:%02x:%02x:%02x SIP=%u.%u.%u.%u\n" (sha ++ sip),
    rawLine "ARP: THA=%02x:%02x:%02x:%02x:%02x:%02x TIP=%u.%u.%u.%u\n" (tha ++ tip)]

/-- The line for the IP header at an offset. -/
def ipLine (order : ByteOrder) (ip : Nat) : Reading Nat UInt8 TraceLine := do
  let fragOff ← loadNet order (ip + 6)
  let flags := fragOff &&& ~~~IP_OFFSET
  let offset := (fragOff &&& IP_OFFSET) <<< 3
  let saddr ← loadField (ip + 12) 4
  let daddr ← loadField (ip + 16) 4
  let protocol ← Reading.load (ip + 9)
  let totLen ← loadNet order (ip + 2)
  return rawLine
    "IP: SRC=%u.%u.%u.%u DST=%u.%u.%u.%u PROTO=%u LEN=%u FLAGS=0x%04X OFFSET=%u\n"
    (saddr ++ daddr ++ [protocol.toNat, totLen.toNat, flags.toNat, offset.toNat])

/-- The block of dump_eth_frame that a break leaves. -/
def dumpEthBlock (arch : Arch) (order : ByteOrder) (valid : Bool) (len : Int) :
    Reading Nat UInt8 (List TraceLine) := do
  let func := "dump_eth_frame"
  if valid = false then return [note LOG_WARN "%s: invalid pointer passed." func]
  else if arch.toSizeT len < sizeofEthhdr then
    return [note LOG_WARN "%s: can't print ethernet header: invalid length." func]
  else
    let eth ← ethLine order
    let proto ← loadNet order 12
    if proto = 0x0806 then
      if arch.toSizeT len < sizeofEthhdr + sizeofArphdr then
        return [eth, note LOG_WARN "%s: can't print ARP header: invalid length." func]
      else
        let arp ← arpLines order
        return eth :: arp
    else
      let proto ← loadNet order 12
      if proto = 0x0800 then
        if arch.toSizeT len < sizeofEthhdr + sizeofIphdr then
          return [eth, note LOG_WARN "%s: can't print IP header: invalid length." func]
        else
          let ip ← ipLine order sizeofEthhdr
          return [eth, ip]
      else return [eth]

/-- The block of dump_ip_packet that a break leaves. -/
def dumpIpBlock (arch : Arch) (order : ByteOrder) (valid : Bool) (len : Int) :
    Reading Nat UInt8 (List TraceLine) := do
  let func := "dump_ip_packet"
  if valid = false then return [note LOG_WARN "%s: invalid pointer passed." func]
  else if arch.toSizeT len < sizeofIphdr then
    return [note LOG_WARN "%s: can't print IP header: invalid length." func]
  else
    let ip ← ipLine order 0
    return [ip]

/-- The lines of a function between those for entering and leaving it. -/
def framed (func : String) (block : Reading Nat UInt8 (List TraceLine)) :
    Reading Nat UInt8 (List TraceLine) := do
  let lines ← block
  return note LOG_INFO "%s: ==>" func :: (lines ++ [note LOG_INFO "%s: <==" func])

/-- dump_eth_frame; `valid` is IS_PTR_VALID(data). -/
def dumpEthFrame (arch : Arch) (order : ByteOrder) (valid : Bool) (len : Int) :
    Reading Nat UInt8 (List TraceLine) :=
  framed "dump_eth_frame" (dumpEthBlock arch order valid len)

/-- dump_ip_packet -/
def dumpIpPacket (arch : Arch) (order : ByteOrder) (valid : Bool) (len : Int) :
    Reading Nat UInt8 (List TraceLine) :=
  framed "dump_ip_packet" (dumpIpBlock arch order valid len)

section Within

variable {m : Nat → UInt8} {order : ByteOrder} {n : Nat}

theorem loadNet_within {at_ : Nat} :
    (loadNet order at_).Within m (· < n) ↔ at_ + 2 ≤ n := by
  simp only [loadNet, Reading.within_bind, Reading.within_load, Reading.within_pure, and_true]
  omega

theorem loadNet_value (at_ : Nat) :
    (loadNet order at_).value m = big.word (m at_) (m (at_ + 1)) := by
  simp only [loadNet, Reading.value_bind, Reading.value_load, Reading.value_pure, ntohs_word]

theorem loadField_within {at_ k : Nat} :
    (loadField at_ k).Within m (· < n) ↔ k = 0 ∨ at_ + k ≤ n := by
  simp only [loadField, Reading.within_bind, Reading.within_loads, Reading.within_pure, and_true,
    List.forall_mem_map, List.mem_range]
  constructor
  · intro within
    by_cases none : k = 0
    · exact Or.inl none
    · have last := within (k - 1) (by omega)
      omega
  · intro fits j below
    omega

theorem ethLine_within (header : sizeofEthhdr ≤ n) : (ethLine order).Within m (· < n) := by
  simp only [sizeofEthhdr] at header
  simp only [ethLine, Reading.within_bind, Reading.within_pure, loadField_within, loadNet_within,
    and_true]
  omega

/-- The addresses go up to 20 bytes behind the ARP header. -/
theorem arpLines_within_iff :
    (arpLines order).Within m (· < n) ↔ sizeofEthhdr + sizeofArphdr + 20 ≤ n := by
  simp only [arpLines, Reading.within_bind, Reading.within_load, Reading.within_pure,
    loadField_within, loadNet_within, sizeofEthhdr, sizeofArphdr, and_true]
  omega

theorem ipLine_within {ip : Nat} (header : ip + sizeofIphdr ≤ n) :
    (ipLine order ip).Within m (· < n) := by
  simp only [sizeofIphdr] at header
  simp only [ipLine, Reading.within_bind, Reading.within_load, Reading.within_pure,
    loadField_within, loadNet_within, and_true]
  omega

theorem framed_within {P : Nat → Prop} {func : String}
    {block : Reading Nat UInt8 (List TraceLine)} :
    (framed func block).Within m P ↔ block.Within m P := by
  simp only [framed, Reading.within_bind, Reading.within_pure, and_true]

end Within

/-- The frame is an ARP frame that ends within the addresses. -/
def ArpCut (m : Nat → UInt8) (valid : Bool) (len : Int) : Prop :=
  valid = true ∧ 22 ≤ len ∧ len < 42 ∧ m 12 = 0x08 ∧ m 13 = 0x06

theorem arp_word_iff (a b : UInt8) : big.word a b = 0x0806 ↔ a = 0x08 ∧ b = 0x06 := by
  have high := a.toNat_lt
  have low := b.toNat_lt
  rw [← UInt16.toNat_inj, ← UInt8.toNat_inj, ← UInt8.toNat_inj, toNat_word_big]
  change 256 * a.toNat + b.toNat = 2054 ↔ a.toNat = 8 ∧ b.toNat = 6
  omega

/-- What is read of a frame that holds an Ethernet header: with the ARP header
go the addresses, whether the frame holds them or not. -/
theorem dumpEthBlock_within_iff (arch : Arch) (order : ByteOrder) (m : Nat → UInt8) (valid : Bool)
    {n : Nat} (fits : n < 2 ^ 31) :
    (dumpEthBlock arch order valid n).Within m (· < n) ↔ ¬ ArpCut m valid n := by
  have size : arch.toSizeT n = n := arch.toSizeT_natCast_of_lt fits
  have lengths : sizeofEthhdr = 14 ∧ sizeofEthhdr + sizeofArphdr = 22 := ⟨rfl, rfl⟩
  simp only [dumpEthBlock, Reading.within_ite, Reading.within_bind, Reading.within_pure, size,
    loadNet_value, arpLines_within_iff, arp_word_iff, Bool.not_eq_false, and_true, implies_true,
    true_and]
  constructor
  · rintro within ⟨given, header, cut, type⟩
    obtain ⟨_, _, arp, _⟩ := within given (by omega)
    have whole := arp type (by omega)
    omega
  · intro whole given header
    have type : (loadNet order 12).Within m (· < n) := loadNet_within.mpr (by omega)
    refine ⟨ethLine_within (Nat.le_of_not_lt header), type, ?_, ?_⟩
    · intro arp enough
      by_contra cut
      exact whole ⟨given, by omega, by omega, arp⟩
    · intro _
      exact ⟨type, fun _ enough => ipLine_within (Nat.le_of_not_lt enough)⟩

theorem dumpIpBlock_within (arch : Arch) (order : ByteOrder) (m : Nat → UInt8) (valid : Bool)
    {n : Nat} (fits : n < 2 ^ 31) : (dumpIpBlock arch order valid n).Within m (· < n) := by
  have size : arch.toSizeT n = n := arch.toSizeT_natCast_of_lt fits
  simp only [dumpIpBlock, Reading.within_ite, Reading.within_bind, Reading.within_pure, size,
    and_true, implies_true, true_and]
  intro _ enough
  exact ipLine_within (by omega)

/-- Both dumpers read inside their buffer exactly when this is no ARP frame
that ends within the addresses. -/
theorem dump_within_iff (arch : Arch) (order : ByteOrder) (m : Nat → UInt8) (valid : Bool)
    (len : Int) (nonneg : 0 ≤ len) (fits : len < 2 ^ 31) :
    ((dumpEthFrame arch order valid len).Within m (fun offset => (offset : Int) < len) ∧
        (dumpIpPacket arch order valid len).Within m (fun offset => (offset : Int) < len)) ↔
      ¬ ArpCut m valid len := by
  obtain ⟨n, rfl⟩ := Int.eq_ofNat_of_zero_le nonneg
  have short : n < 2 ^ 31 := by omega
  simp only [Int.ofNat_lt, dumpEthFrame, dumpIpPacket, framed_within,
    dumpEthBlock_within_iff arch order m valid short, dumpIpBlock_within arch order m valid short,
    and_true]

/-- The bytes of an ARP frame. -/
def arpFrame : Nat → UInt8 := fun i => if i = 12 then 0x08 else if i = 13 then 0x06 else 0

theorem dump_within_arp :
    (dumpEthFrame lp64 .little true 42).Within arpFrame (fun offset : Nat => (offset : Int) < 42) ∧
      (dumpIpPacket lp64 .little true 42).Within arpFrame
        (fun offset : Nat => (offset : Int) < 42) :=
  (dump_within_iff lp64 .little arpFrame true 42 (by decide) (by decide)).mpr
    fun cut => absurd cut.2.2.1 (by decide)

/-- The first 22 bytes of it hold the ARP header, and nothing of the addresses. -/
theorem arp_frame_overread :
    ¬ ((dumpEthFrame lp64 .little true 22).Within arpFrame
        (fun offset : Nat => (offset : Int) < 22) ∧
      (dumpIpPacket lp64 .little true 22).Within arpFrame
        (fun offset : Nat => (offset : Int) < 22)) := by
  rintro ⟨within, _⟩
  exact absurd (within 41 (by decide +kernel)) (by decide)

section Traced

variable (arch : Arch) (order : ByteOrder) (m : Nat → UInt8)

theorem rawLine_traced (format : String) (args : List Nat) :
    traced false (rawLine format args).flag = true := by
  change traced false (LOG_INFO ||| LOG_RAW) = true
  rfl

theorem warning_traced (format func : String) :
    traced false (note LOG_WARN format func).flag = true := by
  change traced false LOG_WARN = true
  rfl

theorem ethLine_traced : traced false ((ethLine order).value m).flag = true := by
  simp only [ethLine, Reading.value_bind, Reading.value_pure, rawLine_traced]

theorem arpLines_traced : ∀ line ∈ (arpLines order).value m, traced false line.flag = true := by
  simp only [arpLines, Reading.value_bind, Reading.value_pure, List.forall_mem_cons,
    rawLine_traced, true_and]
  exact List.forall_mem_nil _

theorem ipLine_traced (ip : Nat) : traced false ((ipLine order ip).value m).flag = true := by
  simp only [ipLine, Reading.value_bind, Reading.value_pure, rawLine_traced]

theorem dumpEthBlock_traced (valid : Bool) (len : Int) :
    ∀ line ∈ (dumpEthBlock arch order valid len).value m, traced false line.flag = true := by
  have eth := ethLine_traced order m
  have single (line : TraceLine) (h : traced false line.flag = true) :
      ∀ other ∈ [line], traced false other.flag = true := List.forall_mem_singleton.mpr h
  simp only [dumpEthBlock, Reading.value_ite, Reading.value_bind, Reading.value_pure]
  split_ifs
  · exact single _ (warning_traced _ _)
  · exact single _ (warning_traced _ _)
  · exact List.forall_mem_cons.mpr ⟨eth, single _ (warning_traced _ _)⟩
  · exact List.forall_mem_cons.mpr ⟨eth, arpLines_traced order m⟩
  · exact List.forall_mem_cons.mpr ⟨eth, single _ (warning_traced _ _)⟩
  · exact List.forall_mem_cons.mpr ⟨eth, single _ (ipLine_traced order m _)⟩
  · exact single _ eth

theorem dumpIpBlock_traced (valid : Bool) (len : Int) :
    ∀ line ∈ (dumpIpBlock arch order valid len).value m, traced false line.flag = true := by
  simp only [dumpIpBlock, Reading.value_ite, Reading.value_bind, Reading.value_pure]
  split_ifs
  · exact List.forall_mem_singleton.mpr (warning_traced _ _)
  · exact List.forall_mem_singleton.mpr (warning_traced _ _)
  · exact List.forall_mem_singleton.mpr (ipLine_traced order m 0)

theorem framed_traced {func : String} {block : Reading Nat UInt8 (List TraceLine)}
    (inside : ∀ line ∈ block.value m, traced false line.flag = true) :
    ∀ line ∈ (framed func block).value m, traced false line.flag = true := by
  have info : traced false LOG_INFO = true := rfl
  simp only [framed, Reading.value_bind, Reading.value_pure, List.forall_mem_cons,
    List.forall_mem_append, note, info, true_and]
  exact ⟨inside, List.forall_mem_nil _⟩

end Traced

/-- No line of a dumper waits for the debug flag, so that the TRACE macro always
evaluates its arguments. -/
theorem dump_traced (arch : Arch) (order : ByteOrder) (m : Nat → UInt8) (valid : Bool)
    (len : Int) :
    (∀ line ∈ (dumpEthFrame arch order valid len).value m, traced false line.flag = true) ∧
      ∀ line ∈ (dumpIpPacket arch order valid len).value m, traced false line.flag = true := by
  constructor
  · exact framed_traced m (dumpEthBlock_traced arch order m valid len)
  · exact framed_traced m (dumpIpBlock_traced arch order m valid len)

end Kvnet
