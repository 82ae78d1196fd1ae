import Liburing.Defs
import Liburing.Ring.Run
/-!
# The ring's file descriptors (register.c:11-24, :260-313, :360-370; setup.c:297-358)

| here | there |
| --- | --- |
| `RingFds` | `ring->ring_fd`, `ring->enter_ring_fd`, `ring->int_flags`, `ring->features` |
| `queueInitFds` | what `__io_uring_queue_init_params` sets once `io_uring_setup` returned `fd ≥ 0` |
| `doRegister` | `do_register` (register.c:11) |
| `ioUringRegisterRingFd`, `ioUringUnregisterRingFd`, `ioUringCloseRingFd` | register.c:260-313, given the kernel's return value |
| `ioUringRegisterNapi`, `ioUringUnregisterNapi` | register.c:360-370 |
| `enterHandle` | the fd and `IORING_ENTER_REGISTERED_RING` of every `io_uring_enter` call (`Wait.lean`) |

A ring is reached through a handle: its open file descriptor, or its index in the task's table
of registered rings, passed with `IORING_REGISTER_USE_REGISTERED_RING` (or
`IORING_ENTER_REGISTERED_RING`). What the kernel holds is part of the state of a run
(`FdSys`): the open fd, if any, and the registered index, if any. A handle is live when it
names one of them.

The library's flags and fds always agree with what the kernel holds (`FdSys.Agrees`). The
invariant on the library's side (`FdInv`: a registered ring is used for registration only once
registered; an unregistered ring is entered through its fd; a ring without fd is registered for
registration) makes every `io_uring_enter` and `do_register` handle live. It holds after setup
and along every run except through an unregistration after `io_uring_close_ring_fd`, which
leaves no handle at all. The NAPI calls pass `ring_fd` without `do_register`, which is dead on
every ring that has no open fd.
-/
set_option linter.style.nameCheck false

namespace Liburing

open SlotRing

/-- The handles of `struct io_uring`, with the `features` the kernel reported at setup. -/
structure RingFds where
  ringFd : Int32
  enterRingFd : Int32
  intFlags : U8
  features : U32
deriving DecidableEq, Repr

/-- The fd and the opcode of an `io_uring_register(2)` call. -/
structure RegisterCall where
  fd : Int32
  opcode : U32
deriving DecidableEq, Repr

/-- `do_register`: once the ring is registered for registration, the registered index. -/
def doRegister (r : RingFds) (opcode : U32) : RegisterCall :=
  if hasFlag r.intFlags INT_FLAG_REG_REG_RING then ⟨r.enterRingFd, opcode ||| IORING_REGISTER_USE_REGISTERED_RING⟩
  else ⟨r.ringFd, opcode⟩

/-- `__sys_io_uring_register(ring->ring_fd, opcode, …)`, called without `do_register`. -/
def registerOnRingFd (r : RingFds) (opcode : U32) : RegisterCall := ⟨r.ringFd, opcode⟩

/-- `io_uring_register_napi`. -/
def ioUringRegisterNapi (r : RingFds) : RegisterCall := registerOnRingFd r IORING_REGISTER_NAPI

/-- `io_uring_unregister_napi`. -/
def ioUringUnregisterNapi (r : RingFds) : RegisterCall := registerOnRingFd r IORING_UNREGISTER_NAPI

/-- What a library call did: the `io_uring_register` call it made, if any, the handles it left
and its return value. -/
structure FdResult where
  call : Option RegisterCall
  fds : RingFds
  ret : Int32

/-- `io_uring_register_ring_fd`, where the kernel returns `ret` and writes `offset` into
`up.offset`. -/
def ioUringRegisterRingFd (r : RingFds) (ret : Int32) (offset : U32) : FdResult :=
  if hasFlag r.intFlags INT_FLAG_REG_RING then ⟨none, r, -EEXIST⟩
  else
    let call := doRegister r IORING_REGISTER_RING_FDS
    if ret = 1 then
      let intFlags := r.intFlags ||| INT_FLAG_REG_RING
      let intFlags := if hasFlag r.features IORING_FEAT_REG_REG_RING then intFlags ||| INT_FLAG_REG_REG_RING
        else intFlags
      -- `ring->enter_ring_fd = up.offset;`: the `__u32` index stored in an `int`
      ⟨some call, { r with enterRingFd := Int32.ofBitVec offset, intFlags }, ret⟩
    else ⟨some call, r, ret⟩

/-- `io_uring_unregister_ring_fd`, where the kernel returns `ret`. -/
def ioUringUnregisterRingFd (r : RingFds) (ret : Int32) : FdResult :=
  if !hasFlag r.intFlags INT_FLAG_REG_RING then ⟨none, r, -EINVAL⟩
  else
    let call := doRegister r IORING_UNREGISTER_RING_FDS
    if ret = 1 then
      ⟨some call, { r with enterRingFd := r.ringFd,
                           intFlags := r.intFlags &&& ~~~(INT_FLAG_REG_RING ||| INT_FLAG_REG_REG_RING) }, ret⟩
    else ⟨some call, r, ret⟩

/-- `io_uring_close_ring_fd`; the `close` it makes is no register call. -/
def ioUringCloseRingFd (r : RingFds) : FdResult :=
  if !hasFlag r.features IORING_FEAT_REG_REG_RING then ⟨none, r, -EOPNOTSUPP⟩
  else if !hasFlag r.intFlags INT_FLAG_REG_RING then ⟨none, r, -EINVAL⟩
  else if r.ringFd = -1 then ⟨none, r, -EBADF⟩
  else ⟨none, { r with ringFd := -1 }, 1⟩

/-- The handles `__io_uring_queue_init_params` leaves once `io_uring_setup` returned `fd`;
`appMem` says whether it set `INT_FLAG_APP_MEM` on the way (IORING_SETUP_NO_MMAP with a
buffer). -/
def queueInitFds (appMem : Bool) (fd : Int32) (pflags features : U32) : RingFds :=
  -- `memset(ring, 0, sizeof(*ring))`
  let intFlags : U8 := if appMem then INT_FLAG_APP_MEM else 0
  if hasFlag pflags IORING_SETUP_REGISTERED_FD_ONLY then
    ⟨-1, fd, intFlags ||| (INT_FLAG_REG_RING ||| INT_FLAG_REG_REG_RING), features⟩
  else ⟨fd, fd, intFlags, features⟩

/-! ## Handles -/

/-- A handle given to the kernel: an fd, and whether it is a registered index. -/
structure Handle where
  fd : Int32
  registered : Bool
deriving DecidableEq, Repr

def RegisterCall.handle (c : RegisterCall) : Handle := ⟨c.fd, hasFlag c.opcode IORING_REGISTER_USE_REGISTERED_RING⟩

/-- The handle of the `io_uring_enter` calls: `enter_ring_fd`, with IORING_ENTER_REGISTERED_RING
under INT_FLAG_REG_RING. -/
def enterHandle (r : RingFds) : Handle := ⟨r.enterRingFd, hasFlag r.intFlags INT_FLAG_REG_RING⟩

/-- The ring's handles together with what the kernel holds: the ring's open fd and its index
in the task's registered rings. -/
structure FdSys where
  fds : RingFds
  openFd : Option Int32
  regIndex : Option Int32
deriving DecidableEq, Repr

/-- A handle the kernel resolves to the ring. -/
def FdSys.Live (s : FdSys) (h : Handle) : Prop :=
  if h.registered then s.regIndex = some h.fd else s.openFd = some h.fd

instance (s : FdSys) (h : Handle) : Decidable (s.Live h) :=
  inferInstanceAs (Decidable (if h.registered then s.regIndex = some h.fd else s.openFd = some h.fd))

/-- After setup, the kernel holds the fd it returned, as an open fd or, under
IORING_SETUP_REGISTERED_FD_ONLY, as a registered index. -/
def fdInit (appMem : Bool) (fd : Int32) (pflags features : U32) : FdSys :=
  if hasFlag pflags IORING_SETUP_REGISTERED_FD_ONLY then ⟨queueInitFds appMem fd pflags features, none, some fd⟩
  else ⟨queueInitFds appMem fd pflags features, some fd, none⟩

inductive FdOp where
  /-- `io_uring_register_ring_fd`; the kernel returns `ret` and the index `offset`. -/
  | registerRingFd (ret : Int32) (offset : U32)
  /-- `io_uring_unregister_ring_fd`; the kernel returns `ret`. -/
  | unregisterRingFd (ret : Int32)
  /-- `io_uring_close_ring_fd`. -/
  | closeRingFd
deriving DecidableEq, Repr

/-- A library call and the kernel's side of it: a registration that returns 1 adds the ring at
`offset`, an unregistration that returns 1 removes it, a successful close closes the fd. -/
def fdStep (s : FdSys) : FdOp → FdSys
  | .registerRingFd ret offset =>
    let res := ioUringRegisterRingFd s.fds ret offset
    ⟨res.fds, s.openFd, if res.call.isSome ∧ ret = 1 then some (Int32.ofBitVec offset) else s.regIndex⟩
  | .unregisterRingFd ret =>
    let res := ioUringUnregisterRingFd s.fds ret
    ⟨res.fds, s.openFd, if res.call.isSome ∧ ret = 1 then none else s.regIndex⟩
  | .closeRingFd =>
    let res := ioUringCloseRingFd s.fds
    ⟨res.fds, if res.ret = 1 then none else s.openFd, s.regIndex⟩

/-- Runs that never unregister a ring whose fd is closed. -/
def fdLegal (s : FdSys) : FdOp → Prop
  | .unregisterRingFd ret => s.fds.ringFd ≠ -1 ∨ ret ≠ 1
  | _ => True

instance fdLegal.decidable (s : FdSys) : (op : FdOp) → Decidable (fdLegal s op)
  | .registerRingFd _ _ => inferInstanceAs (Decidable True)
  | .unregisterRingFd ret => inferInstanceAs (Decidable (s.fds.ringFd ≠ -1 ∨ ret ≠ 1))
  | .closeRingFd => inferInstanceAs (Decidable True)

/-! ## Invariants -/

/-- The library's invariant on its handles. -/
structure FdInv (r : RingFds) : Prop where
  regReg_regRing : hasFlag r.intFlags INT_FLAG_REG_REG_RING → hasFlag r.intFlags INT_FLAG_REG_RING
  enter_eq : hasFlag r.intFlags INT_FLAG_REG_RING = false → r.enterRingFd = r.ringFd
  closed_regReg : r.ringFd = -1 → hasFlag r.intFlags INT_FLAG_REG_REG_RING

/-- What reachable states add: with IORING_FEAT_REG_REG_RING, a registered ring is registered
for registration too. -/
structure FdReach (r : RingFds) : Prop extends FdInv r where
  feat_regReg : hasFlag r.features IORING_FEAT_REG_REG_RING → hasFlag r.intFlags INT_FLAG_REG_RING →
    hasFlag r.intFlags INT_FLAG_REG_REG_RING

/-- The library's flags and fds say what the kernel holds. -/
structure FdSys.Agrees (s : FdSys) : Prop where
  reg : hasFlag s.fds.intFlags INT_FLAG_REG_RING → s.regIndex = some s.fds.enterRingFd
  unreg : hasFlag s.fds.intFlags INT_FLAG_REG_RING = false → s.regIndex = none
  open_fd : s.fds.ringFd ≠ -1 → s.openFd = some s.fds.ringFd
  closed : s.fds.ringFd = -1 → s.openFd = none

theorem ne_neg_one_of_nonneg {fd : Int32} (h : 0 ≤ fd) : fd ≠ -1 := by
  rintro rfl
  exact absurd h (by decide)

theorem intFlags_init (appMem : Bool) :
    hasFlag (if appMem then INT_FLAG_APP_MEM else 0) INT_FLAG_REG_RING = false ∧
      hasFlag (if appMem then INT_FLAG_APP_MEM else 0) INT_FLAG_REG_REG_RING = false := by
  cases appMem <;> decide

theorem intFlags_fdOnly (x : U8) :
    hasFlag (x ||| (INT_FLAG_REG_RING ||| INT_FLAG_REG_REG_RING)) INT_FLAG_REG_RING = true ∧
      hasFlag (x ||| (INT_FLAG_REG_RING ||| INT_FLAG_REG_REG_RING)) INT_FLAG_REG_REG_RING = true := by
  rw [← BitVec.or_assoc]
  refine ⟨?_, hasFlag_or_self _ _ (by decide)⟩
  rw [hasFlag_or_of_disjoint _ _ _ (by decide)]
  exact hasFlag_or_self _ _ (by decide)

/-- Setup sets INT_FLAG_APP_MEM exactly for a caller's buffer. -/
theorem queueInitFds_appMem (appMem : Bool) (fd : Int32) (pflags features : U32) :
    hasFlag (queueInitFds appMem fd pflags features).intFlags INT_FLAG_APP_MEM = appMem := by
  have h0 : hasFlag (if appMem then INT_FLAG_APP_MEM else 0) INT_FLAG_APP_MEM = appMem := by
    cases appMem <;> decide
  unfold queueInitFds
  by_cases hfo : hasFlag pflags IORING_SETUP_REGISTERED_FD_ONLY
  · simp only [hfo, if_true]
    rw [hasFlag_or_of_disjoint _ _ _ (by decide), h0]
  · simp only [hfo, Bool.false_eq_true, if_false]
    exact h0

section
variable (appMem : Bool) {fd : Int32} (pflags features : U32)

theorem fdInit_reach (hfd : 0 ≤ fd) : FdReach (fdInit appMem fd pflags features).fds := by
  obtain ⟨h1, h2⟩ := intFlags_init appMem
  unfold fdInit queueInitFds
  by_cases hfo : hasFlag pflags IORING_SETUP_REGISTERED_FD_ONLY
  · simp only [hfo, if_true]
    obtain ⟨r1, r2⟩ := intFlags_fdOnly (if appMem then INT_FLAG_APP_MEM else 0)
    exact ⟨⟨fun _ => r1, fun h => absurd (r1.symm.trans h) (by decide), fun _ => r2⟩, fun _ _ => r2⟩
  · simp only [hfo, Bool.false_eq_true, if_false]
    exact ⟨⟨fun h => absurd (h.symm.trans h2) (by decide), fun _ => rfl,
      fun h => absurd h (ne_neg_one_of_nonneg hfd)⟩, fun _ h => absurd (h.symm.trans h1) (by decide)⟩

theorem fdInit_agrees (hfd : 0 ≤ fd) : (fdInit appMem fd pflags features).Agrees := by
  obtain ⟨h1, -⟩ := intFlags_init appMem
  unfold fdInit queueInitFds
  by_cases hfo : hasFlag pflags IORING_SETUP_REGISTERED_FD_ONLY
  · simp only [hfo, if_true]
    obtain ⟨r1, -⟩ := intFlags_fdOnly (if appMem then INT_FLAG_APP_MEM else 0)
    exact ⟨fun _ => rfl, fun h => absurd (r1.symm.trans h) (by decide), fun h => absurd rfl h, fun _ => rfl⟩
  · simp only [hfo, Bool.false_eq_true, if_false]
    exact ⟨fun h => absurd (h.symm.trans h1) (by decide), fun _ => rfl, fun _ => rfl,
      fun h => absurd h (ne_neg_one_of_nonneg hfd)⟩

end

/-! ## One step -/

/-- Setting and clearing the two registration flags. -/
theorem intFlags_set (x : U8) :
    hasFlag (x ||| INT_FLAG_REG_RING) INT_FLAG_REG_RING = true ∧
      hasFlag (x ||| INT_FLAG_REG_RING) INT_FLAG_REG_REG_RING = hasFlag x INT_FLAG_REG_REG_RING ∧
      hasFlag (x ||| INT_FLAG_REG_REG_RING) INT_FLAG_REG_REG_RING = true ∧
      hasFlag (x ||| INT_FLAG_REG_REG_RING) INT_FLAG_REG_RING = hasFlag x INT_FLAG_REG_RING :=
  ⟨hasFlag_or_self _ _ (by decide), hasFlag_or_of_disjoint _ _ _ (by decide), hasFlag_or_self _ _ (by decide),
    hasFlag_or_of_disjoint _ _ _ (by decide)⟩

theorem intFlags_clear (x : U8) :
    hasFlag (x &&& ~~~(INT_FLAG_REG_RING ||| INT_FLAG_REG_REG_RING)) INT_FLAG_REG_RING = false ∧
      hasFlag (x &&& ~~~(INT_FLAG_REG_RING ||| INT_FLAG_REG_REG_RING)) INT_FLAG_REG_REG_RING = false :=
  ⟨hasFlag_and_not _ _ _ (by decide), hasFlag_and_not _ _ _ (by decide)⟩

/-- A registration changes nothing, or registers an unregistered ring at `offset`, for
registration too exactly when the kernel has IORING_FEAT_REG_REG_RING. -/
theorem fdStep_register (s : FdSys) (ret : Int32) (offset : U32) :
    fdStep s (.registerRingFd ret offset) = s ∨
      (hasFlag s.fds.intFlags INT_FLAG_REG_RING = false ∧ ∃ fl : U8, hasFlag fl INT_FLAG_REG_RING = true ∧
        hasFlag fl INT_FLAG_REG_REG_RING =
          (hasFlag s.fds.features IORING_FEAT_REG_REG_RING || hasFlag s.fds.intFlags INT_FLAG_REG_REG_RING) ∧
        fdStep s (.registerRingFd ret offset) =
          ⟨{ s.fds with enterRingFd := Int32.ofBitVec offset, intFlags := fl }, s.openFd,
            some (Int32.ofBitVec offset)⟩) := by
  unfold fdStep ioUringRegisterRingFd
  by_cases hR : hasFlag s.fds.intFlags INT_FLAG_REG_RING
  · left
    simp [hR]
  · have hR' : hasFlag s.fds.intFlags INT_FLAG_REG_RING = false := by simpa using hR
    by_cases hret : ret = 1
    · right
      obtain ⟨a1, a2, -, -⟩ := intFlags_set s.fds.intFlags
      by_cases hfeat : hasFlag s.fds.features IORING_FEAT_REG_REG_RING
      · obtain ⟨-, -, b3, b4⟩ := intFlags_set (s.fds.intFlags ||| INT_FLAG_REG_RING)
        refine ⟨hR', _, b4.trans a1, by rw [b3, hfeat, Bool.true_or], ?_⟩
        simp [hR', hret, hfeat]
      · have hfeat' : hasFlag s.fds.features IORING_FEAT_REG_REG_RING = false := by simpa using hfeat
        refine ⟨hR', _, a1, by rw [a2, hfeat', Bool.false_or], ?_⟩
        simp [hR', hret, hfeat]
    · left
      simp [hR', hret]

/-- An unregistration changes nothing, or unregisters a registered ring and enters it
through `ring_fd` again. -/
theorem fdStep_unregister (s : FdSys) (ret : Int32) :
    fdStep s (.unregisterRingFd ret) = s ∨
      (hasFlag s.fds.intFlags INT_FLAG_REG_RING = true ∧ ret = 1 ∧ ∃ fl : U8, hasFlag fl INT_FLAG_REG_RING = false ∧
        hasFlag fl INT_FLAG_REG_REG_RING = false ∧
        fdStep s (.unregisterRingFd ret) = ⟨{ s.fds with enterRingFd := s.fds.ringFd, intFlags := fl }, s.openFd, none⟩) := by
  unfold fdStep ioUringUnregisterRingFd
  by_cases hR : hasFlag s.fds.intFlags INT_FLAG_REG_RING
  · by_cases hret : ret = 1
    · right
      obtain ⟨c1, c2⟩ := intFlags_clear s.fds.intFlags
      exact ⟨hR, hret, _, c1, c2, by simp [hR, hret]⟩
    · left
      simp [hR, hret]
  · left
    simp [hR]

/-- A close changes nothing, or closes the fd of a ring registered on a kernel with
IORING_FEAT_REG_REG_RING. -/
theorem fdStep_close (s : FdSys) :
    fdStep s .closeRingFd = s ∨
      (hasFlag s.fds.features IORING_FEAT_REG_REG_RING = true ∧ hasFlag s.fds.intFlags INT_FLAG_REG_RING = true ∧
        s.fds.ringFd ≠ -1 ∧ fdStep s .closeRingFd = ⟨{ s.fds with ringFd := -1 }, none, s.regIndex⟩) := by
  unfold fdStep ioUringCloseRingFd
  by_cases hfeat : hasFlag s.fds.features IORING_FEAT_REG_REG_RING
  · by_cases hR : hasFlag s.fds.intFlags INT_FLAG_REG_RING
    · by_cases hfd : s.fds.ringFd = -1
      · left
        simp [hfeat, hR, hfd, (by decide : (-EBADF : Int32) ≠ 1)]
      · right
        exact ⟨hfeat, hR, hfd, by simp [hfeat, hR, hfd]⟩
    · left
      simp [hfeat, hR, (by decide : (-EINVAL : Int32) ≠ 1)]
  · left
    simp [hfeat, (by decide : (-EOPNOTSUPP : Int32) ≠ 1)]

/-- Unregistering a registered ring that the kernel answers with 1. -/
theorem fdStep_unregister_one (s : FdSys) (hR : hasFlag s.fds.intFlags INT_FLAG_REG_RING = true) :
    fdStep s (.unregisterRingFd 1) =
      ⟨{ s.fds with enterRingFd := s.fds.ringFd,
                    intFlags := s.fds.intFlags &&& ~~~(INT_FLAG_REG_RING ||| INT_FLAG_REG_REG_RING) }, s.openFd, none⟩ := by
  simp [fdStep, ioUringUnregisterRingFd, hR]

/-! ### The invariants along a step -/

section
variable {s : FdSys}

/-- Whatever the kernel answers, the library's flags keep saying what it holds. -/
theorem fdStep_agrees (hs : s.Agrees) (op : FdOp) : (fdStep s op).Agrees := by
  cases op with
  | registerRingFd ret offset =>
    rcases fdStep_register s ret offset with h | ⟨-, fl, h1, -, h⟩
    · rw [h]; exact hs
    · rw [h]
      exact ⟨fun _ => rfl, fun h => absurd (h1.symm.trans h) (by decide), hs.open_fd, hs.closed⟩
  | unregisterRingFd ret =>
    rcases fdStep_unregister s ret with h | ⟨-, -, fl, h1, -, h⟩
    · rw [h]; exact hs
    · rw [h]
      exact ⟨fun h => absurd (h1.symm.trans h) (by decide), fun _ => rfl, hs.open_fd, hs.closed⟩
  | closeRingFd =>
    rcases fdStep_close s with h | ⟨-, -, -, h⟩
    · rw [h]; exact hs
    · rw [h]
      exact ⟨hs.reg, hs.unreg, fun h => absurd rfl h, fun _ => rfl⟩

/-- Every step the runs allow keeps the library's invariant. -/
theorem fdStep_reach (hs : FdReach s.fds) (op : FdOp) (hl : fdLegal s op) : FdReach (fdStep s op).fds := by
  -- without a fd, a ring is registered (`closed_regReg`, then `regReg_regRing`)
  have hopen : hasFlag s.fds.intFlags INT_FLAG_REG_RING = false → s.fds.ringFd ≠ -1 := fun hR hc =>
    absurd (hR.symm.trans (hs.regReg_regRing (hs.closed_regReg hc))) (by decide)
  cases op with
  | registerRingFd ret offset =>
    rcases fdStep_register s ret offset with h | ⟨hR, fl, h1, h2, h⟩
    · rw [h]; exact hs
    · rw [h]
      exact ⟨⟨fun _ => h1, fun h => absurd (h1.symm.trans h) (by decide), fun hc => absurd hc (hopen hR)⟩,
        fun hf _ => by rw [h2, hf, Bool.true_or]⟩
  | unregisterRingFd ret =>
    rcases fdStep_unregister s ret with h | ⟨-, hret, fl, h1, h2, h⟩
    · rw [h]; exact hs
    · -- the runs only unregister a ring whose fd is still open
      have hfd : s.fds.ringFd ≠ -1 := hl.resolve_right (not_not.2 hret)
      rw [h]
      exact ⟨⟨fun h => absurd (h2.symm.trans h) (by decide), fun _ => rfl, fun hc => absurd hc hfd⟩,
        fun _ h => absurd (h1.symm.trans h) (by decide)⟩
  | closeRingFd =>
    rcases fdStep_close s with h | ⟨hfeat, hR, -, h⟩
    · rw [h]; exact hs
    · rw [h]
      exact ⟨⟨hs.regReg_regRing, fun h => absurd (hR.symm.trans h) (by decide), fun _ => hs.feat_regReg hfeat hR⟩,
        hs.feat_regReg⟩

/-- Unregistering after a close leaves the invariant broken and the ring without a handle. -/
theorem fdStep_unregister_closed (hs : s.Agrees) (hinv : FdInv s.fds) (hclosed : s.fds.ringFd = -1) :
    ¬ FdInv (fdStep s (.unregisterRingFd 1)).fds ∧ ∀ h, ¬ (fdStep s (.unregisterRingFd 1)).Live h := by
  have hR := hinv.regReg_regRing (hinv.closed_regReg hclosed)
  obtain ⟨-, c2⟩ := intFlags_clear s.fds.intFlags
  rw [fdStep_unregister_one s hR]
  refine ⟨fun hinv' => absurd (c2.symm.trans (hinv'.closed_regReg hclosed)) (by decide), fun h hl => ?_⟩
  unfold FdSys.Live at hl
  split at hl
  · exact absurd hl (by simp)
  · rw [hs.closed hclosed] at hl
    exact absurd hl (by simp)

/-! ### Handles -/

/-- In a state of the invariant, `io_uring_enter` and `do_register` reach the ring. -/
theorem fds_live (hinv : FdInv s.fds) (hs : s.Agrees) :
    s.Live (enterHandle s.fds) ∧
      ∀ opcode, hasFlag opcode IORING_REGISTER_USE_REGISTERED_RING = false → s.Live (doRegister s.fds opcode).handle := by
  have hopen : hasFlag s.fds.intFlags INT_FLAG_REG_REG_RING = false → s.openFd = some s.fds.ringFd := fun hRR =>
    hs.open_fd fun hc => absurd (hRR.symm.trans (hinv.closed_regReg hc)) (by decide)
  refine ⟨?_, fun opcode hop => ?_⟩
  · unfold FdSys.Live enterHandle
    by_cases hR : hasFlag s.fds.intFlags INT_FLAG_REG_RING
    · rw [if_pos hR]
      exact hs.reg hR
    · have hR' : hasFlag s.fds.intFlags INT_FLAG_REG_RING = false := by simpa using hR
      rw [if_neg hR, hinv.enter_eq hR']
      -- an unregistered ring is not registered for registration either
      exact hopen (by
        cases hRR : hasFlag s.fds.intFlags INT_FLAG_REG_REG_RING
        · rfl
        · exact absurd (hR'.symm.trans (hinv.regReg_regRing hRR)) (by decide))
  · unfold FdSys.Live doRegister RegisterCall.handle
    by_cases hRR : hasFlag s.fds.intFlags INT_FLAG_REG_REG_RING
    · rw [if_pos hRR, hasFlag_or_self _ _ (by decide), if_pos rfl]
      exact hs.reg (hinv.regReg_regRing hRR)
    · rw [if_neg hRR, hop]
      exact hopen (by simpa using hRR)

/-- The NAPI calls reach the ring exactly while it has an open fd. -/
theorem napi_live_iff (hs : s.Agrees) :
    (s.Live (ioUringRegisterNapi s.fds).handle ↔ s.fds.ringFd ≠ -1) ∧
      (s.Live (ioUringUnregisterNapi s.fds).handle ↔ s.fds.ringFd ≠ -1) := by
  have key : ∀ opcode, hasFlag opcode IORING_REGISTER_USE_REGISTERED_RING = false →
      (s.Live (registerOnRingFd s.fds opcode).handle ↔ s.fds.ringFd ≠ -1) := fun opcode hop => by
    unfold FdSys.Live registerOnRingFd RegisterCall.handle
    rw [hop]
    simp only [Bool.false_eq_true, if_false]
    constructor
    · intro hl hc
      rw [hs.closed hc] at hl
      exact absurd hl (by simp)
    · exact hs.open_fd
  exact ⟨key _ (by decide), key _ (by decide)⟩

end

/-! ### Runs -/

/-- Along every run, whatever the kernel answers, the library's flags say what it holds. -/
theorem fdRun_agrees (s : FdSys) (ops : List FdOp) (hs : s.Agrees) : (run fdStep s ops).Agrees :=
  run_invariant FdSys.Agrees (fun _ op h (_ : True) => fdStep_agrees h op) s ops hs
    (legal_of_forall fdStep (fun _ _ => trivial) s ops)

/-- Along every run that does not unregister a closed ring, whatever the kernel answers, the
invariant holds. -/
theorem fdRun_reach (s : FdSys) (ops : List FdOp) (hs : FdReach s.fds) (hl : Legal fdStep fdLegal s ops) :
    FdReach (run fdStep s ops).fds :=
  run_invariant (fun s => FdReach s.fds) (fun _ op h hl => fdStep_reach h op hl) s ops hs hl

/-- A ring set up with IORING_SETUP_REGISTERED_FD_ONLY. -/
def fdOnlyRing : FdSys := fdInit false 3 IORING_SETUP_REGISTERED_FD_ONLY IORING_FEAT_REG_REG_RING

/-- Register the fd of a ring, close it, unregister the ring. -/
def closeThenUnregister : List FdOp := [.registerRingFd 1 0, .closeRingFd, .unregisterRingFd 1]

theorem napi_bypasses_registered_ring :
    (∀ appMem fd pflags features, 0 ≤ fd → FdReach (fdInit appMem fd pflags features).fds ∧
      ∀ ops, (run fdStep (fdInit appMem fd pflags features) ops).Agrees) ∧
    (∀ s ops, FdReach s.fds → Legal fdStep fdLegal s ops → FdReach (run fdStep s ops).fds) ∧
    (∀ s : FdSys, FdInv s.fds → s.Agrees → s.Live (enterHandle s.fds) ∧
      ∀ opcode, hasFlag opcode IORING_REGISTER_USE_REGISTERED_RING = false → s.Live (doRegister s.fds opcode).handle) ∧
    (∀ s : FdSys, s.Agrees → (s.Live (ioUringRegisterNapi s.fds).handle ↔ s.fds.ringFd ≠ -1)) ∧
    (FdReach fdOnlyRing.fds ∧ fdOnlyRing.Agrees ∧ ¬ fdOnlyRing.Live (ioUringRegisterNapi fdOnlyRing.fds).handle ∧
      ¬ fdOnlyRing.Live (ioUringUnregisterNapi fdOnlyRing.fds).handle) ∧
    (¬ FdInv (run fdStep (fdInit false 3 0 IORING_FEAT_REG_REG_RING) closeThenUnregister).fds ∧
      ∀ h, ¬ (run fdStep (fdInit false 3 0 IORING_FEAT_REG_REG_RING) closeThenUnregister).Live h) := by
  have h3 : (0 : Int32) ≤ 3 := by decide
  refine ⟨fun appMem fd pflags features hfd =>
      ⟨fdInit_reach appMem pflags features hfd, fun ops => fdRun_agrees _ ops (fdInit_agrees appMem pflags features hfd)⟩,
    fdRun_reach, fun s hinv hs => fds_live hinv hs, fun s hs => (napi_live_iff hs).1, ?_, ?_⟩
  · -- the ring of IORING_SETUP_REGISTERED_FD_ONLY has no fd: NAPI passes `-1`
    have hag := fdInit_agrees false IORING_SETUP_REGISTERED_FD_ONLY IORING_FEAT_REG_REG_RING h3
    have hfd : fdOnlyRing.fds.ringFd = -1 := rfl
    obtain ⟨hreg, hunreg⟩ := napi_live_iff hag
    exact ⟨fdInit_reach false IORING_SETUP_REGISTERED_FD_ONLY IORING_FEAT_REG_REG_RING h3, hag,
      fun hl => hreg.1 hl hfd, fun hl => hunreg.1 hl hfd⟩
  · -- after the close, the run is in a state of the invariant whose fd is `-1`
    have hsplit : closeThenUnregister = [.registerRingFd 1 0, .closeRingFd] ++ [.unregisterRingFd 1] := rfl
    have hl : Legal fdStep fdLegal (fdInit false 3 0 IORING_FEAT_REG_REG_RING) [.registerRingFd 1 0, .closeRingFd] := by decide
    have hinv := (fdRun_reach _ _ (fdInit_reach false 0 IORING_FEAT_REG_REG_RING h3) hl).toFdInv
    have hag := fdRun_agrees (fdInit false 3 0 IORING_FEAT_REG_REG_RING) [.registerRingFd 1 0, .closeRingFd] (fdInit_agrees false 0 IORING_FEAT_REG_REG_RING h3)
    have hfd : (run fdStep (fdInit false 3 0 IORING_FEAT_REG_REG_RING) [.registerRingFd 1 0, .closeRingFd]).fds.ringFd = -1 := by decide
    rw [hsplit, run_append]
    exact fdStep_unregister_closed hag hinv hfd

end Liburing
