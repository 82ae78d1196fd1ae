import Liburing.RingFd
import Liburing.Vm.Regions
/-!
# Setting a ring up and tearing it down (setup.c:12-158, :201-458)

| here | there |
| --- | --- |
| `__fls`, `roundupPow2`, `getSqCqEntries` | setup.c:15-60 |
| `ioUringUnmapRings`, `ioUringMmap` | setup.c:62-149 (`io_uring_setup_ring_pointers` only for `ring_entries`) |
| `ioUringAllocHuge` | setup.c:205-289 |
| `__ioUringQueueInitParams` | setup.c:291-358 |
| `ioUringQueueInitTryNosqarr`, `ioUringQueueInitMem`, `ioUringQueueInitParams`, `ioUringQueueInit` | setup.c:360-422 |
| `ioUringQueueExit` | setup.c:424-452 |

The system calls are answered by an environment (`Sys`): `mmap` by an address or an error,
`io_uring_setup` by its return value and the fields of `struct io_uring_params` the kernel fills
in. Every call made is logged, and `memCalls` reads the log as calls on an address space
(`Vm/Regions.lean`). Pointers and sizes are `unsigned long`; `NULL` is `0`. Of `struct io_uring`
the model keeps the fields these paths read: the sizes and pointers of the rings and of the
SQEs, `sq->ring_entries`, `ring->flags` and the handles of `RingFd.lean`.
-/
set_option linter.style.nameCheck false

namespace Liburing

/-- `KERN_MAX_ENTRIES`. -/
def KERN_MAX_ENTRIES : U32 := 32768
/-- `KERN_MAX_CQ_ENTRIES`. -/
def KERN_MAX_CQ_ENTRIES : U32 := 2 * KERN_MAX_ENTRIES
/-- `huge_page_size`. -/
def hugePageSize : U64 := 2 * 1024 * 1024

/-! ## Sizes -/

/-- The leading zero bits of `x` among its bits `i - 1, …, 0`. -/
def clzFrom (x : U32) : Nat → Nat
  | 0 => 0
  | i + 1 => if x.getLsbD i then 0 else clzFrom x i + 1

/-- `__builtin_clz` (32 for zero, where the builtin is undefined). -/
def __builtinClz (x : U32) : Nat := clzFrom x 32

/-- `__fls`: `8 * sizeof(x) - __builtin_clz(x)`, the builtin taking the `int` as `unsigned`. -/
def __fls (x : Int32) : Int32 := if x = 0 then 0 else Int32.ofNat (8 * 4 - __builtinClz x.toBitVec)

/-- `roundup_pow2`: `1U << __fls(depth - 1)`. -/
def roundupPow2 (depth : U32) : U32 := 1 <<< (__fls (Int32.ofBitVec (depth - 1))).toBitVec.toNat

/-- `struct io_uring_params`: the fields the setup paths set and the ones the kernel fills in. -/
structure IoUringParams where
  sqEntries : U32
  cqEntries : U32
  flags : U32
  features : U32
  sqOffArray : U32
  sqOffUserAddr : U64
  cqOffCqes : U32
  cqOffUserAddr : U64
deriving DecidableEq, Repr

/-- `get_sq_cq_entries`: the SQ and CQ sizes, or an error. -/
def getSqCqEntries (entries : U32) (p : IoUringParams) : Except Int32 (U32 × U32) :=
  if entries = 0 then .error (-EINVAL)
  else if entries > KERN_MAX_ENTRIES ∧ !hasFlag p.flags IORING_SETUP_CLAMP then .error (-EINVAL)
  else
    let entries := roundupPow2 (if entries > KERN_MAX_ENTRIES then KERN_MAX_ENTRIES else entries)
    if hasFlag p.flags IORING_SETUP_CQSIZE then
      if p.cqEntries = 0 then .error (-EINVAL)
      else if p.cqEntries > KERN_MAX_CQ_ENTRIES ∧ !hasFlag p.flags IORING_SETUP_CLAMP then .error (-EINVAL)
      else
        let cqEntries := roundupPow2 (if p.cqEntries > KERN_MAX_CQ_ENTRIES then KERN_MAX_CQ_ENTRIES else p.cqEntries)
        if cqEntries < entries then .error (-EINVAL) else .ok (entries, cqEntries)
    else .ok (entries, 2 * entries)

/-- `get_sq_cq_entries` fails with `-EINVAL` only. -/
theorem getSqCqEntries_error {entries : U32} {p : IoUringParams} {e : Int32}
    (h : getSqCqEntries entries p = .error e) : e = -EINVAL := by
  unfold getSqCqEntries at h
  dsimp only at h
  split_ifs at h <;> cases h <;> rfl

/-! ## System calls -/

/-- What the kernel's `io_uring_setup` does: its return value and the fields it writes back. -/
structure SetupReply where
  ret : Int32
  sqEntries : U32
  cqEntries : U32
  features : U32
  sqOffArray : U32
  cqOffCqes : U32
deriving DecidableEq, Repr

/-- A system call of the setup paths, with the answer it got. -/
inductive SysCall where
  | mmap (len : U64) (hugetlb : Bool) (ret : Except Int32 U64)
  | munmap (addr len : U64)
  | setup (ret : Int32)
  | close (fd : Int32)
deriving Repr

/-- The calls made so far and the answers still to come. -/
structure Sys where
  mmaps : List (Except Int32 U64)
  setups : List SetupReply
  log : List SysCall

/-- A computation that makes system calls: its result and the calls made, or `none` when the
environment has no answer left. -/
abbrev SysM (α : Type) := Sys → Option (α × Sys)

/-- `__sys_mmap(NULL, len, PROT_READ | PROT_WRITE, … | map_hugetlb, …)`. -/
def __sysMmap (len : U64) (hugetlb : Bool) : SysM (Except Int32 U64) := fun s =>
  match s.mmaps with
  | [] => none
  | r :: rs => some (r, { s with mmaps := rs, log := s.log ++ [.mmap len hugetlb r] })

/-- `__sys_munmap(addr, len)`; its result is never read. -/
def __sysMunmap (addr len : U64) (s : Sys) : Sys := { s with log := s.log ++ [.munmap addr len] }

/-- `__sys_close(fd)`. -/
def __sysClose (fd : Int32) (s : Sys) : Sys := { s with log := s.log ++ [.close fd] }

/-- `__sys_io_uring_setup(entries, p)`: on success the kernel fills in `p`. -/
def __sysIoUringSetup (p : IoUringParams) : SysM (Int32 × IoUringParams) := fun s =>
  match s.setups with
  | [] => none
  | k :: ks =>
    let p := if k.ret < 0 then p else
      { p with sqEntries := k.sqEntries, cqEntries := k.cqEntries, features := k.features,
               sqOffArray := k.sqOffArray, cqOffCqes := k.cqOffCqes }
    some ((k.ret, p), { s with setups := ks, log := s.log ++ [.setup k.ret] })

/-- `__sys_mmap` takes the environment's next answer and logs the call. -/
theorem sysMmap_some {len : U64} {huge : Bool} {s s' : Sys} {r : Except Int32 U64}
    (h : __sysMmap len huge s = some (r, s')) :
    ∃ rest, s.mmaps = r :: rest ∧ s' = { s with mmaps := rest, log := s.log ++ [.mmap len huge r] } := by
  unfold __sysMmap at h
  split at h
  · cases h
  · rename_i r' rest hm
    obtain ⟨rfl, rfl⟩ := Prod.mk.inj (Option.some.inj h)
    exact ⟨rest, hm, rfl⟩

/-- `__sys_io_uring_setup` takes the kernel's next reply; the flags it is given come back as
they were. -/
theorem sysIoUringSetup_some {p p' : IoUringParams} {s s' : Sys} {fd : Int32}
    (h : __sysIoUringSetup p s = some ((fd, p'), s')) :
    ∃ k rest, s.setups = k :: rest ∧ fd = k.ret ∧ p'.flags = p.flags ∧ p'.features = (if k.ret < 0 then p.features else k.features) ∧
      (0 ≤ k.ret → p'.sqEntries = k.sqEntries ∧ p'.cqEntries = k.cqEntries) ∧
      s' = { s with setups := rest, log := s.log ++ [.setup k.ret] } := by
  unfold __sysIoUringSetup at h
  split at h
  · cases h
  · rename_i k rest hk
    obtain ⟨⟨rfl, rfl⟩, rfl⟩ := by simpa using h
    refine ⟨k, rest, hk, rfl, ?_, ?_, fun hnn => ?_, rfl⟩
    · split <;> rfl
    · split <;> rfl
    · rw [if_neg (Int32.not_lt.2 hnn)]
      exact ⟨rfl, rfl⟩

/-- The log as calls on the address space. -/
def memCalls : List SysCall → List AddrSpace.Call
  | [] => []
  | .mmap len hugetlb ret :: calls =>
    .mmap len.toNat hugetlb (match ret with | .ok addr => some addr.toNat | .error _ => none) :: memCalls calls
  | .munmap addr len :: calls => .munmap addr.toNat len.toNat :: memCalls calls
  | _ :: calls => memCalls calls

@[simp] theorem memCalls_append (calls more : List SysCall) :
    memCalls (calls ++ more) = memCalls calls ++ memCalls more := by
  induction calls with
  | nil => rfl
  | cons c calls ih => cases c <;> simp [memCalls, ih]

/-! ## The ring's memory -/

/-- The memory fields of `struct io_uring_sq` and `struct io_uring_cq`; `ringEntries` is
`sq->ring_entries`, which is also `*sq->kring_entries`. -/
structure RingMem where
  sqes : U64
  sqRingPtr : U64
  sqRingSz : U64
  cqRingPtr : U64
  cqRingSz : U64
  ringEntries : U32
deriving DecidableEq, Repr

/-- What `memset(ring, 0, sizeof(*ring))` leaves. -/
def RingMem.zero : RingMem := ⟨0, 0, 0, 0, 0, 0⟩

/-- `io_uring_unmap_rings`. -/
def ioUringUnmapRings (m : RingMem) (s : Sys) : Sys :=
  let s := if m.sqRingSz ≠ 0 then __sysMunmap m.sqRingPtr m.sqRingSz s else s
  if m.cqRingPtr ≠ 0 ∧ m.cqRingSz ≠ 0 ∧ m.cqRingPtr ≠ m.sqRingPtr then __sysMunmap m.cqRingPtr m.cqRingSz s else s

/-- `io_uring_setup_ring_pointers`: `sq->ring_entries = *sq->kring_entries`, the kernel's
`sq_entries`. -/
def ioUringSetupRingPointers (p : IoUringParams) (m : RingMem) : RingMem := { m with ringEntries := p.sqEntries }

/-- The sizes `io_uring_mmap` maps the rings with; one size for both under IORING_FEAT_SINGLE_MMAP. -/
def mmapRingSizes (p : IoUringParams) : U64 × U64 :=
  let size : U64 := if hasFlag p.flags IORING_SETUP_CQE32 then 16 + 16 else 16
  let sqRingSz := p.sqOffArray.setWidth 64 + p.sqEntries.setWidth 64 * 4
  let cqRingSz := p.cqOffCqes.setWidth 64 + p.cqEntries.setWidth 64 * size
  if hasFlag p.features IORING_FEAT_SINGLE_MMAP then
    let sqRingSz := if cqRingSz > sqRingSz then cqRingSz else sqRingSz
    (sqRingSz, sqRingSz)
  else (sqRingSz, cqRingSz)

/-- `io_uring_mmap`: map the rings and the SQEs the kernel allocated. -/
def ioUringMmap (p : IoUringParams) (m : RingMem) : SysM (Int32 × RingMem) := fun s =>
  let m := { m with sqRingSz := (mmapRingSizes p).1, cqRingSz := (mmapRingSizes p).2 }
  match __sysMmap m.sqRingSz false s with
  | none => none
  | some (.error e, s) => some ((e, m), s)
  | some (.ok ptr, s) =>
    let m := { m with sqRingPtr := ptr }
    let cq := if hasFlag p.features IORING_FEAT_SINGLE_MMAP then some (.ok ptr, s) else __sysMmap m.cqRingSz false s
    match cq with
    | none => none
    | some (.error e, s) =>
      -- `cq->ring_ptr = NULL; goto err;`
      let m := { m with cqRingPtr := 0 }
      some ((e, m), ioUringUnmapRings m s)
    | some (.ok cqPtr, s) =>
      let m := { m with cqRingPtr := cqPtr }
      let size : U64 := if hasFlag p.flags IORING_SETUP_SQE128 then 64 + 64 else 64
      match __sysMmap (size * p.sqEntries.setWidth 64) false s with
      | none => none
      | some (.error e, s) => some ((e, m), ioUringUnmapRings m s)
      | some (.ok sqes, s) => some ((0, ioUringSetupRingPointers p { m with sqes }), s)

/-- The first region of `io_uring_alloc_huge`: the caller's buffer, or one page, or one huge
page; with its size. -/
def allocFirst (pageSize sqesMem memUsed buf bufSize : U64) : SysM (Except Int32 (U64 × U64)) := fun s =>
  if buf ≠ 0 then
    some (if memUsed > bufSize then .error (-ENOMEM) else .ok (buf, bufSize), s)
  else
    let bufSize : U64 := if sqesMem ≤ pageSize then pageSize else hugePageSize
    (__sysMmap bufSize (decide (sqesMem > pageSize)) s).map fun (ptr, s) => (ptr.map fun ptr => (ptr, bufSize), s)

/-- The rings of `io_uring_alloc_huge`: behind the SQEs when they fit, or in a second page or
huge page. -/
def allocRings (pageSize sqesMem ringMem memUsed bufSize : U64) (m : RingMem) : SysM (Except Int32 RingMem) := fun s =>
  if memUsed ≤ bufSize then
    -- one region, nothing for `io_uring_unmap_rings` to undo
    some (.ok { m with sqRingPtr := m.sqes + sqesMem, cqRingSz := 0, sqRingSz := 0 }, s)
  else
    let bufSize : U64 := if ringMem ≤ pageSize then pageSize else hugePageSize
    match __sysMmap bufSize (decide (ringMem > pageSize)) s with
    | none => none
    | some (.error e, s) => some (.error e, __sysMunmap m.sqes 1 s)
    | some (.ok ptr, s) => some (.ok { m with sqRingPtr := ptr, sqRingSz := bufSize, cqRingSz := 0 }, s)

/-- `sqes_mem`: the SQEs' bytes rounded up to pages. -/
def sqesMemOf (pageSize : U64) (sqEntries : U32) : U64 :=
  let sqesMem : U64 := sqEntries.setWidth 64 * 64
  (sqesMem + pageSize - 1) &&& ~~~(pageSize - 1)

/-- `ring_mem`: the CQEs, and the SQ array without IORING_SETUP_NO_SQARRAY. -/
def ringMemOf (flags : U32) (sqEntries cqEntries : U32) : U64 :=
  let ringMem : U64 := cqEntries.setWidth 64 * 16
  let ringMem := if hasFlag flags IORING_SETUP_CQE32 then ringMem * 2 else ringMem
  if !hasFlag flags IORING_SETUP_NO_SQARRAY then ringMem + sqEntries.setWidth 64 * 4 else ringMem

/-- `mem_used`: both, rounded up to pages. -/
def memUsedOf (pageSize sqesMem ringMem : U64) : U64 := (sqesMem + ringMem + pageSize - 1) &&& ~~~(pageSize - 1)

/-- `io_uring_alloc_huge`: the bytes used, or an error; `p` with the two user addresses. -/
def ioUringAllocHuge (entries : U32) (p : IoUringParams) (pageSize : U64) (m : RingMem) (buf bufSize : U64) :
    SysM (Int32 × IoUringParams × RingMem) := fun s =>
  match getSqCqEntries entries p with
  | .error e => some ((e, p, m), s)
  | .ok (sqEntries, cqEntries) =>
    let sqesMem := sqesMemOf pageSize sqEntries
    let ringMem := ringMemOf p.flags sqEntries cqEntries
    let memUsed := memUsedOf pageSize sqesMem ringMem
    if buf = 0 ∧ (sqesMem > hugePageSize ∨ ringMem > hugePageSize) then some ((-ENOMEM, p, m), s)
    else match allocFirst pageSize sqesMem memUsed buf bufSize s with
    | none => none
    | some (.error e, s) => some ((e, p, m), s)
    | some (.ok (ptr, bufSize), s) =>
      match allocRings pageSize sqesMem ringMem memUsed bufSize { m with sqes := ptr } s with
      | none => none
      | some (.error e, s) => some ((e, p, { m with sqes := ptr }), s)
      | some (.ok m, s) =>
        let m := { m with cqRingPtr := m.sqRingPtr }
        -- `return (int) mem_used;`
        some ((Int32.ofBitVec (memUsed.setWidth 32), { p with sqOffUserAddr := m.sqes, cqOffUserAddr := m.sqRingPtr }, m), s)


/-! ### What the allocation does with a caller's buffer -/

section
variable {pageSize sqesMem ringMem memUsed buf bufSize : U64} {s : Sys}

theorem allocFirst_buf (hbuf : buf ≠ 0) : allocFirst pageSize sqesMem memUsed buf bufSize s =
    some (if memUsed > bufSize then .error (-ENOMEM) else .ok (buf, bufSize), s) := by
  rw [allocFirst, if_pos hbuf]

theorem allocRings_fits (m : RingMem) (h : memUsed ≤ bufSize) : allocRings pageSize sqesMem ringMem memUsed bufSize m s =
    some (.ok { m with sqRingPtr := m.sqes + sqesMem, cqRingSz := 0, sqRingSz := 0 }, s) := by
  rw [allocRings, if_pos h]

/-- With a caller's buffer, `io_uring_alloc_huge` makes no system call; when it succeeds the SQEs
start the buffer, the rings follow them, and nothing is to be unmapped. -/
theorem allocHuge_buf {entries : U32} {p p' : IoUringParams} {m m' : RingMem} {ret : Int32} {s' : Sys}
    (hbuf : buf ≠ 0) (h : ioUringAllocHuge entries p pageSize m buf bufSize s = some ((ret, p', m'), s')) :
    s' = s ∧ (ret < 0 ∨ ∃ sq cq, getSqCqEntries entries p = .ok (sq, cq) ∧
      memUsedOf pageSize (sqesMemOf pageSize sq) (ringMemOf p.flags sq cq) ≤ bufSize ∧
      ret = Int32.ofBitVec ((memUsedOf pageSize (sqesMemOf pageSize sq) (ringMemOf p.flags sq cq)).setWidth 32) ∧
      m' = { m with sqes := buf, sqRingPtr := buf + sqesMemOf pageSize sq, sqRingSz := 0, cqRingSz := 0,
                    cqRingPtr := buf + sqesMemOf pageSize sq } ∧
      p' = { p with sqOffUserAddr := buf, cqOffUserAddr := buf + sqesMemOf pageSize sq }) := by
  unfold ioUringAllocHuge at h
  cases hg : getSqCqEntries entries p with
  | error e =>
    rw [hg] at h
    obtain ⟨⟨rfl, -, -⟩, rfl⟩ := by simpa using h
    exact ⟨rfl, .inl (by rw [getSqCqEntries_error hg]; decide)⟩
  | ok r =>
    obtain ⟨sq, cq⟩ := r
    rw [hg] at h
    dsimp only at h
    rw [if_neg (fun hb => hbuf hb.1), allocFirst_buf hbuf] at h
    by_cases hfit : memUsedOf pageSize (sqesMemOf pageSize sq) (ringMemOf p.flags sq cq) > bufSize
    · rw [if_pos hfit] at h
      obtain ⟨⟨rfl, -, -⟩, rfl⟩ := by simpa using h
      exact ⟨rfl, .inl (by decide)⟩
    · rw [if_neg hfit] at h
      simp only [allocRings_fits _ (BitVec.not_lt.1 hfit)] at h
      obtain ⟨⟨rfl, rfl, rfl⟩, rfl⟩ := by simpa using h
      exact ⟨rfl, .inr ⟨sq, cq, rfl, BitVec.not_lt.1 hfit, rfl, rfl, rfl⟩⟩

end

/-! ## Setup and exit -/

/-- The ring as setup leaves it. -/
structure RingSetup where
  mem : RingMem
  flags : U32
  fds : RingFds
deriving DecidableEq, Repr

/-- What `memset(ring, 0, sizeof(*ring))` leaves. -/
def RingSetup.zero : RingSetup := ⟨RingMem.zero, 0, ⟨0, 0, 0, 0⟩⟩

/-- The tail of `__io_uring_queue_init_params` once `io_uring_setup` returned `fd ≥ 0`: map the
rings, or point into the memory already allocated. -/
def initAfterSetup (fd : Int32) (p : IoUringParams) (ret : Int32) (mem : RingMem) (noMmap appMem : Bool) :
    SysM (Int32 × IoUringParams × RingSetup) := fun s =>
  if !noMmap then
    -- `io_uring_queue_mmap` clears the ring before mapping
    match ioUringMmap p RingMem.zero s with
    | none => none
    | some ((ret, mem), s) =>
      if ret ≠ 0 then some ((ret, p, { RingSetup.zero with mem }), __sysClose fd s)
      else some ((ret, p, ⟨mem, p.flags, queueInitFds appMem fd p.flags p.features⟩), s)
  else some ((ret, p, ⟨ioUringSetupRingPointers p mem, p.flags, queueInitFds appMem fd p.flags p.features⟩), s)

/-- `__io_uring_queue_init_params`: the return value, `p` as the kernel filled it in, and the
ring. -/
def __ioUringQueueInitParams (entries : U32) (p : IoUringParams) (pageSize buf bufSize : U64) :
    SysM (Int32 × IoUringParams × RingSetup) := fun s =>
  let noMmap := hasFlag p.flags IORING_SETUP_NO_MMAP
  if hasFlag p.flags IORING_SETUP_REGISTERED_FD_ONLY ∧ !noMmap then some ((-EINVAL, p, RingSetup.zero), s)
  else
    let alloc := if noMmap then ioUringAllocHuge entries p pageSize RingMem.zero buf bufSize s
      else some ((0, p, RingMem.zero), s)
    match alloc with
    | none => none
    | some ((ret, p, mem), s) =>
      if ret < 0 then some ((ret, p, { RingSetup.zero with mem }), s)
      else
        let appMem := noMmap && buf != 0
        match __sysIoUringSetup p s with
        | none => none
        | some ((fd, p), s) =>
          if fd < 0 then
            let s := if noMmap && !appMem then ioUringUnmapRings mem (__sysMunmap mem.sqes 1 s) else s
            let fds := { RingSetup.zero.fds with intFlags := if appMem then INT_FLAG_APP_MEM else 0 }
            some ((fd, p, { RingSetup.zero with mem := mem, fds := fds }), s)
          else initAfterSetup fd p ret mem noMmap appMem s

/-- `io_uring_queue_init_try_nosqarr`: first with IORING_SETUP_NO_SQARRAY, then without it
when the kernel rejects it. -/
def ioUringQueueInitTryNosqarr (entries : U32) (p : IoUringParams) (pageSize buf bufSize : U64) :
    SysM (Int32 × IoUringParams × RingSetup) := fun s =>
  let flags := p.flags
  match __ioUringQueueInitParams entries { p with flags := p.flags ||| IORING_SETUP_NO_SQARRAY } pageSize buf bufSize s with
  | none => none
  | some ((ret, p, ring), s) =>
    -- don't fall back if explicitly asked for IORING_SETUP_NO_SQARRAY
    if ret ≠ -EINVAL ∨ hasFlag flags IORING_SETUP_NO_SQARRAY then some ((ret, p, ring), s)
    else __ioUringQueueInitParams entries { p with flags } pageSize buf bufSize s

/-- `io_uring_queue_init_mem`: the rings in the caller's buffer. -/
def ioUringQueueInitMem (entries : U32) (p : IoUringParams) (pageSize buf bufSize : U64) :
    SysM (Int32 × IoUringParams × RingSetup) :=
  ioUringQueueInitTryNosqarr entries { p with flags := p.flags ||| IORING_SETUP_NO_MMAP } pageSize buf bufSize

/-- `io_uring_queue_init_params`. -/
def ioUringQueueInitParams (entries : U32) (p : IoUringParams) (pageSize : U64) :
    SysM (Int32 × IoUringParams × RingSetup) := fun s =>
  (ioUringQueueInitTryNosqarr entries p pageSize 0 0 s).map fun ((ret, p, ring), s) =>
    ((if ret ≥ 0 then 0 else ret, p, ring), s)

/-- `memset(&p, 0, sizeof(p)); p.flags = flags;` -/
def paramsOfFlags (flags : U32) : IoUringParams := ⟨0, 0, flags, 0, 0, 0, 0, 0⟩

/-- `io_uring_queue_init`. -/
def ioUringQueueInit (entries : U32) (flags : U32) (pageSize : U64) : SysM (Int32 × IoUringParams × RingSetup) :=
  ioUringQueueInitParams entries (paramsOfFlags flags) pageSize

/-- The unmapping of `io_uring_queue_exit`. -/
def queueExitUnmap (ring : RingSetup) (s : Sys) : Sys :=
  if ring.mem.sqRingSz = 0 then
    let sqeSize : U64 := if hasFlag ring.flags IORING_SETUP_SQE128 then 64 + 64 else 64
    ioUringUnmapRings ring.mem (__sysMunmap ring.mem.sqes (sqeSize * ring.mem.ringEntries.setWidth 64) s)
  else if !hasFlag ring.fds.intFlags INT_FLAG_APP_MEM then
    ioUringUnmapRings ring.mem (__sysMunmap ring.mem.sqes (ring.mem.ringEntries.setWidth 64 * 64) s)
  else s

/-- `io_uring_queue_exit`; the unregistration of the ring fd it may make is in `RingFd.lean`. -/
def ioUringQueueExit (ring : RingSetup) (s : Sys) : Sys :=
  let s := queueExitUnmap ring s
  if ring.fds.ringFd ≠ -1 then __sysClose ring.fds.ringFd s else s

/-! ## What setup leaves and exit undoes -/

/-- A successful `__io_uring_queue_init_params` in a caller's buffer leaves one region, the
buffer, with INT_FLAG_APP_MEM set. -/
theorem initParams_buf {entries : U32} {p p' : IoUringParams} {pageSize buf bufSize : U64} {s s' : Sys}
    {ret : Int32} {ring : RingSetup} (hnm : hasFlag p.flags IORING_SETUP_NO_MMAP = true) (hbuf : buf ≠ 0)
    (h : __ioUringQueueInitParams entries p pageSize buf bufSize s = some ((ret, p', ring), s')) (hret : 0 ≤ ret) :
    ring.mem.sqes = buf ∧ ring.mem.sqRingSz = 0 ∧ ring.mem.cqRingSz = 0 ∧
      hasFlag ring.fds.intFlags INT_FLAG_APP_MEM = true := by
  unfold __ioUringQueueInitParams at h
  simp only [hnm, Bool.not_true, Bool.false_eq_true, and_false, if_false, if_true] at h
  cases ha : ioUringAllocHuge entries p pageSize RingMem.zero buf bufSize s with
  | none =>
    rw [ha] at h
    cases h
  | some r =>
    obtain ⟨⟨ret0, p0, mem⟩, s0⟩ := r
    rw [ha] at h
    simp only at h
    obtain ⟨rfl, hcases⟩ := allocHuge_buf hbuf ha
    -- the early returns give a negative value
    by_cases hneg : ret0 < 0
    · rw [if_pos hneg] at h
      obtain ⟨⟨rfl, -, -⟩, -⟩ := by simpa using h
      exact absurd hneg (Int32.not_lt.2 hret)
    rw [if_neg hneg] at h
    obtain ⟨sq, cq, -, -, -, rfl, -⟩ := hcases.resolve_left hneg
    cases hs : __sysIoUringSetup p0 s0 with
    | none =>
      rw [hs] at h
      cases h
    | some r =>
      obtain ⟨⟨fd, p1⟩, s1⟩ := r
      rw [hs] at h
      simp only at h
      by_cases hfd : fd < 0
      · rw [if_pos hfd] at h
        obtain ⟨⟨rfl, -, -⟩, -⟩ := by simpa using h
        exact absurd hfd (Int32.not_lt.2 hret)
      rw [if_neg hfd] at h
      simp only [initAfterSetup, Bool.not_true, Bool.false_eq_true, if_false] at h
      obtain ⟨⟨-, -, rfl⟩, -⟩ := by simpa using h
      have happ : (buf != 0#64) = true := bne_iff_ne.2 hbuf
      rw [happ]
      exact ⟨rfl, rfl, rfl, queueInitFds_appMem _ _ _ _⟩

/-- `io_uring_queue_init_try_nosqarr` returns what one of its two calls returned, made with the
caller's flags or with IORING_SETUP_NO_SQARRAY added. -/
theorem tryNosqarr_cases {entries : U32} {p : IoUringParams} {pageSize buf bufSize : U64} {s : Sys}
    {r : (Int32 × IoUringParams × RingSetup) × Sys}
    (h : ioUringQueueInitTryNosqarr entries p pageSize buf bufSize s = some r) :
    ∃ q s0, (q.flags = p.flags ||| IORING_SETUP_NO_SQARRAY ∨ q.flags = p.flags) ∧
      __ioUringQueueInitParams entries q pageSize buf bufSize s0 = some r := by
  unfold ioUringQueueInitTryNosqarr at h
  cases h1 : __ioUringQueueInitParams entries { p with flags := p.flags ||| IORING_SETUP_NO_SQARRAY } pageSize buf
      bufSize s with
  | none =>
    rw [h1] at h
    cases h
  | some r1 =>
    obtain ⟨⟨ret, p1, ring⟩, s1⟩ := r1
    rw [h1] at h
    dsimp only at h
    split at h
    · cases h
      exact ⟨_, _, .inl rfl, h1⟩
    · refine ⟨_, _, ?_, h⟩
      exact .inr rfl

/-- A successful `io_uring_queue_init_mem` with a buffer leaves the ring in it, one region, with
INT_FLAG_APP_MEM set. -/
theorem initMem_buf {entries : U32} {p p' : IoUringParams} {pageSize buf bufSize : U64} {s s' : Sys}
    {ret : Int32} {ring : RingSetup} (hbuf : buf ≠ 0)
    (h : ioUringQueueInitMem entries p pageSize buf bufSize s = some ((ret, p', ring), s')) (hret : 0 ≤ ret) :
    ring.mem.sqes = buf ∧ ring.mem.sqRingSz = 0 ∧ ring.mem.cqRingSz = 0 ∧
      hasFlag ring.fds.intFlags INT_FLAG_APP_MEM = true := by
  obtain ⟨q, s0, hq, hinit⟩ := tryNosqarr_cases h
  -- both calls keep IORING_SETUP_NO_MMAP
  have hnm : hasFlag q.flags IORING_SETUP_NO_MMAP = true := by
    rcases hq with hq | hq <;> rw [hq]
    · rw [hasFlag_or_of_disjoint _ _ _ (by decide)]
      exact hasFlag_or_self _ _ (by decide)
    · exact hasFlag_or_self _ _ (by decide)
  exact initParams_buf hnm hbuf hinit hret

theorem ioUringUnmapRings_zero (m : RingMem) (s : Sys) (h0 : m.sqRingSz = 0) (h1 : m.cqRingSz = 0) :
    ioUringUnmapRings m s = s := by
  simp [ioUringUnmapRings, h0, h1]

/-- `io_uring_unmap_rings` takes no answer from the environment. -/
theorem ioUringUnmapRings_mmaps (m : RingMem) (s : Sys) :
    (ioUringUnmapRings m s).mmaps = s.mmaps ∧ (ioUringUnmapRings m s).setups = s.setups := by
  unfold ioUringUnmapRings
  dsimp only
  split_ifs <;> exact ⟨rfl, rfl⟩

/-- With one region, exit unmaps the SQEs' bytes at `sqes` and nothing else. -/
theorem queueExitUnmap_one_region (ring : RingSetup) (s : Sys) (h0 : ring.mem.sqRingSz = 0)
    (h1 : ring.mem.cqRingSz = 0) :
    queueExitUnmap ring s = __sysMunmap ring.mem.sqes
      ((if hasFlag ring.flags IORING_SETUP_SQE128 then 64 + 64 else 64) * ring.mem.ringEntries.setWidth 64) s := by
  rw [queueExitUnmap, if_pos h0]
  exact ioUringUnmapRings_zero _ _ h0 h1

/-- The calls on memory of `io_uring_queue_exit` are those of its unmapping. -/
theorem memCalls_queueExit (ring : RingSetup) (s : Sys) :
    memCalls (ioUringQueueExit ring s).log = memCalls (queueExitUnmap ring s).log := by
  unfold ioUringQueueExit
  split
  · simp [__sysClose, memCalls]
  · rfl

end Liburing
