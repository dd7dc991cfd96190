import Kvnet.Vnet

/-!
# The batch header of a read or a write

io_read_to_iovec and io_write_from_iovec start with the same checks on the
caller's header and end with the same write-back of its count; both are stated
once here, with the error codes in the order the source tests them.
-/

namespace Kvnet

/-- The kernel's copy of `struct kvnet_header`. A pointer slot is read at any
index, also one that lies outside the copy. -/
structure KvnetHeader where
  count : UInt32
  pkt : Int → Addr

/-- What the environment decides while the header is fetched: whether kmalloc
succeeds, whether memcpy_fromiovecend faults, and the kernel bytes around the
allocated buffer. -/
structure HeaderEnv where
  memory : Bool
  fault : Bool
  around : Int → UInt8

/-- alloc_paged_mem: a negative int becomes a size no kmalloc can satisfy. -/
def allocPagedMem (size : Int) (memory : Bool) : Bool := memory && decide (0 ≤ size)

/-- The header as it is read from a buffer of the given bytes. -/
def headerAt (arch : Arch) (buf : List UInt8) (around : Int → UInt8) : KvnetHeader :=
  let byte (o : Int) : UInt8 := if 0 ≤ o ∧ o < buf.length then buf.getD o.toNat 0 else around o
  { count := UInt32.ofNat (leNat ((List.range 4).map fun j => byte j))
    pkt := fun i => leNat ((List.range arch.ptrSize).map fun j => byte (4 + i * arch.ptrSize + j)) }

/-- sizeof(struct kvnet_header) + (count - 1) * sizeof(KVNET_PTR) in size_t. -/
def headerLen (arch : Arch) (count : UInt32) : Nat :=
  arch.toSizeT (arch.sizeofHeader + (count - 1).toNat * arch.ptrSize)

def fetchHeader (arch : Arch) (user : UserMem) (iv : List Iovec) (len : Int) (env : HeaderEnv) :
    Except Int KvnetHeader :=
  if arch.toSizeT len < arch.sizeofHeader then .error (-EINVAL)
  else if allocPagedMem (toCInt len) env.memory = false then .error (-ENOMEM)
  else if env.fault then .error (-EFAULT)
  else
    -- the length goes to alloc_paged_mem and to memcpy_fromiovecend as an int
    let hdr := headerAt arch (gather user iv (toCInt len).toNat) env.around
    if hdr.count = 0 then .error (-EINVAL)
    else if arch.toSizeT len < headerLen arch hdr.count then .error (-EINVAL)
    else .ok hdr

/-- A header that passed the checks names at least one packet, and its slots fit
the length as size_t arithmetic computes it. -/
theorem fetchHeader_ok {arch : Arch} {user : UserMem} {iv : List Iovec} {len : Int}
    {env : HeaderEnv} {hdr : KvnetHeader} (h : fetchHeader arch user iv len env = .ok hdr) :
    hdr.count ≠ 0 ∧ headerLen arch hdr.count ≤ arch.toSizeT len := by
  unfold fetchHeader at h
  split at h
  · cases h
  split at h
  · cases h
  split at h
  · cases h
  dsimp only at h
  split at h
  · cases h
  split at h
  · cases h
  rename_i nonzero fits
  cases h
  exact ⟨nonzero, Nat.le_of_not_lt fits⟩

theorem fetchHeader_error {arch : Arch} {user : UserMem} {iv : List Iovec} {len : Int}
    {env : HeaderEnv} {e : Int} (h : fetchHeader arch user iv len env = .error e) : e < 0 := by
  have codes : -EINVAL < 0 ∧ -ENOMEM < 0 ∧ -EFAULT < 0 := by decide
  unfold fetchHeader at h
  split at h
  · exact Except.error.inj h ▸ codes.1
  split at h
  · exact Except.error.inj h ▸ codes.2.1
  split at h
  · exact Except.error.inj h ▸ codes.2.2
  dsimp only at h
  split at h
  · exact Except.error.inj h ▸ codes.1
  split at h
  · exact Except.error.inj h ▸ codes.1
  · cases h

theorem count_pos {count : UInt32} (h : count ≠ 0) : 0 < count.toNat := by
  refine Nat.pos_of_ne_zero fun zero => h ?_
  exact UInt32.toNat_inj.mp (by simpa using zero)

/-- Up to any bound a fault pattern is clean, or has a first fault. -/
theorem clean_or_first {F : Type} (fault : Nat → Option F) (k : Nat) :
    (∀ j, j < k → fault j = none) ∨
      ∃ j f, j < k ∧ (∀ i, i < j → fault i = none) ∧ fault j = some f := by
  induction k with
  | zero => exact Or.inl fun j hj => absurd hj (Nat.not_lt_zero j)
  | succ k ih =>
    rcases ih with clean | ⟨j, f, hj, before, hf⟩
    · cases hk : fault k with
      | none =>
        refine Or.inl fun j hj => ?_
        by_cases last : j = k
        · exact last ▸ hk
        · exact clean j (by omega)
      | some f => exact Or.inr ⟨k, f, by omega, clean, hk⟩
    · exact Or.inr ⟨j, f, by omega, before, hf⟩

theorem first_unique {F : Type} {fault : Nat → Option F} {j j' : Nat} {f f' : F}
    (before : ∀ i, i < j → fault i = none) (struck : fault j = some f)
    (before' : ∀ i, i < j' → fault i = none) (struck' : fault j' = some f') : j = j' := by
  rcases Nat.lt_trichotomy j j' with earlier | same | later
  · rw [before' j earlier] at struck
    cases struck
  · exact same
  · rw [before j' later] at struck'
    cases struck'

/-- A finished read or write: the world, the returned length or error, and the
count memcpy_toiovec has written back, if it has. -/
structure IoResult where
  world : World
  ret : Int
  count : Option UInt32

/-- How many packets a caller takes the call to have moved: the header's count
after a positive length, none after an error. -/
def IoResult.reported (r : IoResult) : Option Nat :=
  if 0 < r.ret then r.count.map UInt32.toNat else if r.ret < 0 then some 0 else none

/-- Packets are only ever reported with a positive length. -/
theorem IoResult.reported_pos {r : IoResult} {k : Nat} (h : r.reported = some k) (hk : 0 < k) :
    0 < r.ret := by
  unfold IoResult.reported at h
  split at h
  · assumption
  split at h
  · have zero : 0 = k := Option.some.inj h
    omega
  · cases h

/-- The end of both calls: `ret` is a packet count or an error. `fault` is the
number of bytes memcpy_toiovec writes before it faults. -/
def reportCount (arch : Arch) (w : World) (iv : List Iovec) (ret : Int) (fault : Option Nat) :
    IoResult :=
  if 0 ≤ ret then
    let count := UInt32.ofNat ret.toNat
    match fault with
    | some written =>
      ⟨w.withUser (scatter w.user iv ((leBytes 4 count.toNat).take written)), -EFAULT, none⟩
    | none =>
      let tail := if count ≠ 0 then (count - 1).toNat * arch.ptrSize else count.toNat
      ⟨w.withUser (scatter w.user iv (leBytes 4 count.toNat)),
        arch.toSsizeT (arch.toSizeT (arch.sizeofHeader + tail)), some count⟩
  else
    ⟨w, ret, none⟩

@[simp] theorem reportCount_error (arch : Arch) (w : World) (iv : List Iovec) {ret : Int}
    (fault : Option Nat) (negative : ret < 0) :
    reportCount arch w iv ret fault = ⟨w, ret, none⟩ := by
  have h : ¬ 0 ≤ ret := by omega
  simp only [reportCount, if_neg h]

/-- Writing the count back changes user memory only. -/
theorem reportCount_world (arch : Arch) (w : World) (iv : List Iovec) (ret : Int)
    (fault : Option Nat) : ∃ user, (reportCount arch w iv ret fault).world = w.withUser user := by
  by_cases count : 0 ≤ ret
  · cases fault with
    | none => exact ⟨_, by simp only [reportCount, if_pos count]; rfl⟩
    | some written => exact ⟨_, by simp only [reportCount, if_pos count]; rfl⟩
  · exact ⟨w.user, by simp only [reportCount, if_neg count]; rfl⟩

@[simp] theorem reportCount_mem (arch : Arch) (w : World) (iv : List Iovec) (ret : Int)
    (fault : Option Nat) : (reportCount arch w iv ret fault).world.mem = w.mem := by
  obtain ⟨user, world⟩ := reportCount_world arch w iv ret fault
  rw [world, World.withUser_mem]

@[simp] theorem reportCount_vnet (arch : Arch) (w : World) (iv : List Iovec) (ret : Int)
    (fault : Option Nat) : (reportCount arch w iv ret fault).world.vnet = w.vnet := by
  obtain ⟨user, world⟩ := reportCount_world arch w iv ret fault
  rw [world, World.withUser]

@[simp] theorem reportCount_kernel (arch : Arch) (w : World) (iv : List Iovec) (ret : Int)
    (fault : Option Nat) : (reportCount arch w iv ret fault).world.kernel = w.kernel := by
  obtain ⟨user, world⟩ := reportCount_world arch w iv ret fault
  rw [world, World.withUser]

/-- An error is reported as nothing moved. -/
theorem reported_error (arch : Arch) (w : World) (iv : List Iovec) {ret : Int} (fault : Option Nat)
    (negative : ret < 0) : (reportCount arch w iv ret fault).reported = some 0 := by
  have h : ¬ 0 < ret := by omega
  rw [reportCount_error arch w iv fault negative]
  simp only [IoResult.reported, if_neg h, if_pos negative]

/-- A count whose write-back faults is reported as nothing moved. -/
theorem reported_fault (arch : Arch) (w : World) (iv : List Iovec) (ret : Int) (written : Nat) :
    (reportCount arch w iv ret (some written)).reported = some 0 := by
  by_cases negative : ret < 0
  · exact reported_error arch w iv (some written) negative
  · have count : 0 ≤ ret := by omega
    simp [reportCount, count, IoResult.reported, EFAULT]

/-- The count k is kept by an ssize_t, and the length returned with it is
positive as one. -/
def Arch.Reportable (arch : Arch) (k : Nat) : Prop :=
  0 ≤ arch.toSsizeT k ∧
    0 < arch.toSsizeT (arch.toSizeT (arch.sizeofHeader + ((k - 1) * arch.ptrSize : Nat)))

theorem lp64_reportable {k : Nat} (fits : k < 2 ^ 32) : lp64.Reportable k := by
  simp only [Arch.Reportable, Arch.toSsizeT, Arch.toSizeT, Arch.sizeofHeader, lp64]
  omega

theorem ilp32_reportable {k : Nat} (fits : k < 2 ^ 29 - 1) : ilp32.Reportable k := by
  simp only [Arch.Reportable, Arch.toSsizeT, Arch.toSizeT, Arch.sizeofHeader, ilp32]
  omega

/-- A positive count is written back, and with it goes the length of a header
that names so many packets. -/
theorem reportCount_written (arch : Arch) (w : World) (iv : List Iovec) {k : Nat}
    (positive : 0 < k) (fits : k < 2 ^ 32) :
    reportCount arch w iv k none =
      ⟨w.withUser (scatter w.user iv (leBytes 4 k)),
        arch.toSsizeT (arch.toSizeT (arch.sizeofHeader + ((k - 1) * arch.ptrSize : Nat))),
        some (UInt32.ofNat k)⟩ := by
  have back : (UInt32.ofNat k).toNat = k := UInt32.toNat_ofNat_of_lt' fits
  have nonzero : UInt32.ofNat k ≠ 0 := by
    intro zero
    rw [zero] at back
    exact absurd back (by simp; omega)
  have less : (UInt32.ofNat k - 1).toNat = k - 1 := by
    rw [UInt32.toNat_sub_of_le _ _ (by rw [UInt32.le_iff_toNat_le, back]; simp; omega), back]
    rfl
  simp only [reportCount, if_pos (Int.natCast_nonneg k), Int.toNat_natCast, if_pos nonzero,
    less, back]

/-- On a 64-bit kernel nothing of this wraps. -/
theorem lp64_reportCount (w : World) (iv : List Iovec) {k : Nat} (positive : 0 < k)
    (fits : k < 2 ^ 32) :
    reportCount lp64 w iv (lp64.toSsizeT k) none =
      ⟨w.withUser (scatter w.user iv (leBytes 4 k)),
        lp64.sizeofHeader + ((k - 1) * lp64.ptrSize : Nat), some (UInt32.ofNat k)⟩ := by
  have kept : lp64.toSsizeT k = k := by
    refine lp64.toSsizeT_of_lt (Int.natCast_nonneg k) ?_
    simp only [lp64]
    omega
  have length : lp64.toSsizeT (lp64.toSizeT
      (lp64.sizeofHeader + ((k - 1) * lp64.ptrSize : Nat))) =
        lp64.sizeofHeader + ((k - 1) * lp64.ptrSize : Nat) := by
    simp only [Arch.toSsizeT, Arch.toSizeT, Arch.sizeofHeader, lp64]
    omega
  rw [kept, reportCount_written lp64 w iv positive fits, length]

/-- A count that is written back is reported exactly when it can be. -/
theorem reported_count (arch : Arch) (w : World) (iv : List Iovec) {k : Nat} (positive : 0 < k)
    (fits : k < 2 ^ 32) :
    (reportCount arch w iv (arch.toSsizeT k) none).reported = some k ↔ arch.Reportable k := by
  rcases arch.toSsizeT_count fits with kept | wrapped
  · have back : (UInt32.ofNat k).toNat = k := UInt32.toNat_ofNat_of_lt' fits
    rw [Arch.Reportable, kept, reportCount_written arch w iv positive fits]
    constructor
    · exact fun told => ⟨Int.natCast_nonneg k, IoResult.reported_pos told positive⟩
    · rintro ⟨_, length⟩
      simp only [IoResult.reported, if_pos length, Option.map_some, back]
  · rw [reported_error arch w iv none wrapped]
    refine iff_of_false (fun none_told => ?_) fun reportable => ?_
    · have zero : 0 = k := Option.some.inj none_told
      omega
    · have nonneg := reportable.1
      omega

/-- So is a count that is to be written back, provided that this does not fault. -/
theorem reported_count_iff (arch : Arch) (w : World) (iv : List Iovec) {k : Nat}
    (positive : 0 < k) (fits : k < 2 ^ 32) (fault : Option Nat) :
    (reportCount arch w iv (arch.toSsizeT k) fault).reported = some k ↔
      fault = none ∧ arch.Reportable k := by
  cases fault with
  | none =>
    rw [reported_count arch w iv positive fits]
    constructor
    · intro reportable
      exact ⟨rfl, reportable⟩
    · rintro ⟨_, reportable⟩
      exact reportable
  | some written =>
    rw [reported_fault]
    constructor
    · intro none_told
      have zero : 0 = k := Option.some.inj none_told
      omega
    · rintro ⟨faultless, _⟩
      cases faultless

end Kvnet
