import Liburing.Sq
import Liburing.Cq
/-!
# Waiting for CQEs (queue.c:62-153, :234-435)

| here | there |
| --- | --- |
| `RingConf`, `IoUring` | the fields of `struct io_uring` the wait and submit paths read and write |
| `GetData`        | `struct get_data` (queue.c:53) |
| `KernelReply`    | what one `io_uring_enter(2)` call does and returns |
| `getCqeMove`, `getCqeLoop` | the loop of `_io_uring_get_cqe` (queue.c:62) |
| `__ioUringSubmit`, `ioUringSubmit` | queue.c:367, :398 |
| `__ioUringSubmitTimeout` | queue.c:276, the internal timeout SQE of kernels without IORING_FEAT_EXT_ARG |
| `ioUringWaitCqes`, `ioUringWaitCqeTimeout`, `ioUringSubmitAndWaitTimeout` | queue.c:299, :353, :319 |
| `ioUringWaitCqeNr`, `ioUringWaitCqe`, `ioUringPeekCqe` | liburing.h:1318, :1389, :1377 |
| `ioUringSubmitAndWait`, `ioUringSubmitAndGetEvents` | queue.c:390-418 |
| `ioUringGetEvents`, `__ioUringSqringWait`, `ioUringSqringWait` | queue.c:149, :427; liburing.h:1249 |

The kernel is an environment: the `io_uring_enter` calls a function makes are answered by
the replies of a list, in order, each of which may consume SQEs, post CQEs and set the SQ ring
flags. A function that would enter the kernel once more than there are replies has no
result (the kernel has not answered yet). The SQE contents are a type parameter and the
internal timeout SQE prepared by `io_uring_prep_timeout` is a parameter.
-/
set_option linter.style.nameCheck false

namespace Liburing

variable {α : Type}

/-- The fixed part of a ring: both queues with the ring's flags and features. -/
structure RingConf where
  sq : SqConf
  cq : CqConf
  flags_eq : sq.flags = cq.flags

/-- `struct io_uring` as the wait and submit paths use it. -/
structure IoUring (α : Type) where
  sq : SqState α
  cq : CqState
  /-- `*sq->kflags`, written by the kernel. -/
  sqKflags : U32
  intFlags : U8
  enterRingFd : Int32

/-- `struct get_data`. `sz` and `arg` are only passed to the kernel; `argTs` is the `ts` field
of the `io_uring_getevents_arg` that `arg` points to on the IORING_ENTER_EXT_ARG paths. -/
structure GetData where
  submit : U32
  waitNr : U32
  getFlags : U32
  hasTs : Bool
  argTs : U64

/-- The arguments of an `io_uring_enter` call that the library chooses. -/
structure EnterCall where
  fd : Int32
  toSubmit : U32
  minComplete : U32
  flags : U32

/-- What the kernel does in one `io_uring_enter` call: its return value, the CQEs it posts and
the SQ ring flags it leaves; a non-negative `ret` is the number of SQEs it consumed. -/
structure KernelReply where
  ret : Int32
  posted : List IoUringCqe
  kflags : U32

/-- The outcome of a wait: the ring, `*cqe_ptr`, the return value, the `io_uring_enter` calls
made and the replies left over. -/
structure GetCqeResult (α : Type) where
  ring : IoUring α
  cqe : Option U32
  err : Int32
  calls : List EnterCall
  rest : List KernelReply

/-- `sq_ring_needs_enter` (queue.c:17): whether `submit` SQEs need `io_uring_enter`, and the
enter flags with IORING_ENTER_SQ_WAKEUP added when the SQPOLL thread sleeps. -/
def sqRingNeedsEnter (ringFlags kflags submit flags : U32) : Bool × U32 :=
  if submit = 0 then (false, flags)
  else if !hasFlag ringFlags IORING_SETUP_SQPOLL then (true, flags)
  else if hasFlag kflags IORING_SQ_NEED_WAKEUP then (true, flags ||| IORING_ENTER_SQ_WAKEUP)
  else (false, flags)

/-- `cq_ring_needs_enter` (queue.c:48). -/
def cqRingNeedsEnter (ringFlags kflags : U32) : Bool :=
  hasFlag ringFlags IORING_SETUP_IOPOLL || cqRingNeedsFlush kflags

/-- The kernel's side of one `io_uring_enter` call. -/
def kernelEnter (c : RingConf) (r : IoUring α) (k : KernelReply) : IoUring α :=
  { r with
    sq := if k.ret < 0 then r.sq else { r.sq with khead := r.sq.khead + k.ret.toBitVec }
    cq := cqPost c.cq r.cq k.posted
    sqKflags := k.kflags }

/-- What one pass of the loop of `_io_uring_get_cqe` decides after its peek (queue.c:82-114). -/
inductive GetCqeMove where
  /-- `break` with this return value. -/
  | stop (err : Int32)
  /-- call `io_uring_enter` with these flags. -/
  | enter (flags : U32)

/-- queue.c:77-114, after `__io_uring_peek_cqe` returned `pk`. -/
def getCqeMove (c : RingConf) (data : GetData) (looped : Bool) (err : Int32) (r : IoUring α) (pk : Peeked) :
    GetCqeMove :=
  if pk.err ≠ 0 then .stop (if err = 0 then pk.err else err)
  else
    let idle := pk.cqe.isNone && data.waitNr == 0 && data.submit == 0
    -- nothing to submit or wait for: enter only once, and only to flush the CQ
    if idle && (looped || !cqRingNeedsEnter c.cq.flags r.sqKflags) then
      .stop (if err = 0 then -EAGAIN else err)
    else
      let (needEnter, flags) :=
        if data.waitNr > pk.available || idle then (true, IORING_ENTER_GETEVENTS ||| data.getFlags)
        else (idle, (0 : U32))
      let (sqEnter, flags) := sqRingNeedsEnter c.cq.flags r.sqKflags data.submit flags
      if !(needEnter || sqEnter) then .stop err
      else if looped && data.hasTs then
        .stop (if pk.cqe.isNone && data.argTs != 0 && err == 0 then -ETIME else err)
      else .enter (if hasFlag r.intFlags INT_FLAG_REG_RING then flags ||| IORING_ENTER_REGISTERED_RING else flags)

/-- The loop of `_io_uring_get_cqe`, answered by `replies`. -/
def getCqeLoop (c : RingConf) :
    List KernelReply → GetData → Bool → Int32 → List EnterCall → IoUring α → Option (GetCqeResult α)
  | replies, data, looped, err, calls, r =>
    match __ioUringPeekCqe c.cq r.cq with
    | none => none
    | some pk =>
      let r := { r with cq := pk.ring }
      match getCqeMove c data looped err r pk with
      | .stop err => some ⟨r, pk.cqe, err, calls, replies⟩
      | .enter flags =>
        match replies with
        | [] => none
        | k :: ks =>
          let calls := calls ++ [⟨r.enterRingFd, data.submit, data.waitNr, flags⟩]
          let r := kernelEnter c r k
          if k.ret < 0 then some ⟨r, pk.cqe, if err = 0 then k.ret else err, calls, ks⟩
          else
            let data := { data with submit := data.submit - k.ret.toBitVec }
            if pk.cqe.isSome then some ⟨r, pk.cqe, err, calls, ks⟩
            -- the first return value of `io_uring_enter` is kept as the result (queue.c:125-128)
            else if !looped then getCqeLoop c ks data true k.ret calls r
            else getCqeLoop c ks data looped err calls r

/-- `__io_uring_get_cqe` (queue.c:135); the signal mask only goes to the kernel. -/
def __ioUringGetCqe (c : RingConf) (replies : List KernelReply) (r : IoUring α) (submit waitNr : U32) :
    Option (GetCqeResult α) :=
  getCqeLoop c replies ⟨submit, waitNr, 0, false, 0⟩ false 0 [] r

/-- `io_uring_wait_cqe_nr` (liburing.h:1318). -/
def ioUringWaitCqeNr (c : RingConf) (replies : List KernelReply) (r : IoUring α) (waitNr : U32) :
    Option (GetCqeResult α) :=
  __ioUringGetCqe c replies r 0 waitNr

/-- `io_uring_wait_cqe` (liburing.h:1389): a peek first, the loop only when it found nothing. -/
def ioUringWaitCqe (c : RingConf) (replies : List KernelReply) (r : IoUring α) : Option (GetCqeResult α) :=
  match __ioUringPeekCqe c.cq r.cq with
  | none => none
  | some pk =>
    let r := { r with cq := pk.ring }
    if pk.err = 0 ∧ pk.cqe.isSome then some ⟨r, pk.cqe, 0, [], replies⟩
    else ioUringWaitCqeNr c replies r 1

/-- `io_uring_peek_cqe` (liburing.h:1377): a peek first, the loop with nothing to wait for only
when it found nothing. -/
def ioUringPeekCqe (c : RingConf) (replies : List KernelReply) (r : IoUring α) : Option (GetCqeResult α) :=
  match __ioUringPeekCqe c.cq r.cq with
  | none => none
  | some pk =>
    let r := { r with cq := pk.ring }
    if pk.err = 0 ∧ pk.cqe.isSome then some ⟨r, pk.cqe, 0, [], replies⟩
    else ioUringWaitCqeNr c replies r 0

/-- `__io_uring_submit` (queue.c:367): the ring, the return value, the call made and the
replies left. -/
def __ioUringSubmit (c : RingConf) (replies : List KernelReply) (r : IoUring α) (submitted waitNr : U32)
    (getevents : Bool) : Option (IoUring α × Int32 × List EnterCall × List KernelReply) :=
  let cqNeedsEnter := getevents || waitNr != 0 || cqRingNeedsEnter c.cq.flags r.sqKflags
  let (sqEnter, flags) := sqRingNeedsEnter c.cq.flags r.sqKflags submitted 0
  if sqEnter || cqNeedsEnter then
    let flags := if cqNeedsEnter then flags ||| IORING_ENTER_GETEVENTS else flags
    let flags := if hasFlag r.intFlags INT_FLAG_REG_RING then flags ||| IORING_ENTER_REGISTERED_RING else flags
    match replies with
    | [] => none
    | k :: ks => some (kernelEnter c r k, k.ret, [⟨r.enterRingFd, submitted, waitNr, flags⟩], ks)
  else some (r, Int32.ofBitVec submitted, [], replies)

/-- `io_uring_submit` (queue.c:398). -/
def ioUringSubmit (c : RingConf) (replies : List KernelReply) (r : IoUring α) :
    Option (IoUring α × Int32 × List EnterCall × List KernelReply) :=
  let (sq, submitted) := __ioUringFlushSq r.sq
  __ioUringSubmit c replies { r with sq := sq } submitted 0 false

/-- `__io_uring_submit_and_wait` (queue.c:390). -/
def __ioUringSubmitAndWait (c : RingConf) (replies : List KernelReply) (r : IoUring α) (waitNr : U32) :
    Option (IoUring α × Int32 × List EnterCall × List KernelReply) :=
  let (sq, submitted) := __ioUringFlushSq r.sq
  __ioUringSubmit c replies { r with sq := sq } submitted waitNr false

/-- `io_uring_submit_and_wait` (queue.c:410). -/
def ioUringSubmitAndWait (c : RingConf) (replies : List KernelReply) (r : IoUring α) (waitNr : U32) :
    Option (IoUring α × Int32 × List EnterCall × List KernelReply) :=
  __ioUringSubmitAndWait c replies r waitNr

/-- `io_uring_submit_and_get_events` (queue.c:415). -/
def ioUringSubmitAndGetEvents (c : RingConf) (replies : List KernelReply) (r : IoUring α) :
    Option (IoUring α × Int32 × List EnterCall × List KernelReply) :=
  let (sq, submitted) := __ioUringFlushSq r.sq
  __ioUringSubmit c replies { r with sq := sq } submitted 0 true

/-- An `io_uring_enter` that submits nothing and waits for nothing, with `flags` and
IORING_ENTER_REGISTERED_RING when the ring fd is registered: the body of `io_uring_get_events`
and of `__io_uring_sqring_wait`. -/
def enterWithFlags (flags : U32) (c : RingConf) (replies : List KernelReply) (r : IoUring α) :
    Option (IoUring α × Int32 × List EnterCall × List KernelReply) :=
  let flags := if hasFlag r.intFlags INT_FLAG_REG_RING then flags ||| IORING_ENTER_REGISTERED_RING else flags
  match replies with
  | [] => none
  | k :: ks => some (kernelEnter c r k, k.ret, [⟨r.enterRingFd, 0, 0, flags⟩], ks)

/-- `io_uring_get_events` (queue.c:149). -/
def ioUringGetEvents (c : RingConf) (replies : List KernelReply) (r : IoUring α) :
    Option (IoUring α × Int32 × List EnterCall × List KernelReply) :=
  enterWithFlags IORING_ENTER_GETEVENTS c replies r

/-- `__io_uring_sqring_wait` (queue.c:427). -/
def __ioUringSqringWait (c : RingConf) (replies : List KernelReply) (r : IoUring α) :
    Option (IoUring α × Int32 × List EnterCall × List KernelReply) :=
  enterWithFlags IORING_ENTER_SQ_WAIT c replies r

/-- `io_uring_sqring_wait` (liburing.h:1249): only an SQPOLL ring with a full SQ waits. -/
def ioUringSqringWait (c : RingConf) (replies : List KernelReply) (r : IoUring α) :
    Option (IoUring α × Int32 × List EnterCall × List KernelReply) :=
  if !hasFlag c.sq.flags IORING_SETUP_SQPOLL then some (r, 0, [], replies)
  else if ioUringSqSpaceLeft c.sq r.sq ≠ 0 then some (r, 0, [], replies)
  else __ioUringSqringWait c replies r

/-- Fill the SQE at `i` with the internal timeout and flush: the tail of
`__io_uring_submit_timeout`. -/
def queueTimeoutSqe (timeoutSqe : α) (r : IoUring α) (sq : SqState α) (i : U32) : IoUring α × Int32 :=
  let sq := { sq with sqes := Function.update sq.sqes i timeoutSqe }
  let (sq, n) := __ioUringFlushSq sq
  ({ r with sq := sq }, Int32.ofBitVec n)

/-- `__io_uring_submit_timeout` (queue.c:276): queue the internal timeout SQE, submitting first
when the SQ is full; the count to submit, or an error. -/
def __ioUringSubmitTimeout (c : RingConf) (timeoutSqe : α) (replies : List KernelReply) (r : IoUring α) :
    Option (IoUring α × Int32 × List EnterCall × List KernelReply) :=
  match _ioUringGetSqe c.sq r.sq with
  | (sq, some i) =>
    let (r, n) := queueTimeoutSqe timeoutSqe r sq i
    some (r, n, [], replies)
  | (_, none) =>
    match ioUringSubmit c replies r with
    | none => none
    | some (r, ret, calls, replies) =>
      if ret < 0 then some (r, ret, calls, replies)
      else
        match _ioUringGetSqe c.sq r.sq with
        | (sq, some i) =>
          let (r, n) := queueTimeoutSqe timeoutSqe r sq i
          some (r, n, calls, replies)
        | (_, none) => some (r, -EAGAIN, calls, replies)

/-- `io_uring_wait_cqes` (queue.c:299); `ts` is the timespec pointer (0 for `NULL`). On an early
error return `*cqe_ptr` is not written; the result then says `none`. -/
def ioUringWaitCqes (c : RingConf) (timeoutSqe : α) (replies : List KernelReply) (r : IoUring α)
    (waitNr : U32) (ts : U64) : Option (GetCqeResult α) :=
  if ts ≠ 0 then
    if hasFlag c.cq.features IORING_FEAT_EXT_ARG then
      -- `io_uring_wait_cqes_new`
      getCqeLoop c replies ⟨0, waitNr, IORING_ENTER_EXT_ARG, true, ts⟩ false 0 [] r
    else
      match __ioUringSubmitTimeout c timeoutSqe replies r with
      | none => none
      | some (r, toSubmit, calls, replies) =>
        if toSubmit < 0 then some ⟨r, none, toSubmit, calls, replies⟩
        else (__ioUringGetCqe c replies r toSubmit.toBitVec waitNr).map fun res => { res with calls := calls ++ res.calls }
  else __ioUringGetCqe c replies r 0 waitNr

/-- `io_uring_wait_cqe_timeout` (queue.c:353). -/
def ioUringWaitCqeTimeout (c : RingConf) (timeoutSqe : α) (replies : List KernelReply) (r : IoUring α)
    (ts : U64) : Option (GetCqeResult α) :=
  ioUringWaitCqes c timeoutSqe replies r 1 ts

/-- `io_uring_submit_and_wait_timeout` (queue.c:319). -/
def ioUringSubmitAndWaitTimeout (c : RingConf) (timeoutSqe : α) (replies : List KernelReply) (r : IoUring α)
    (waitNr : U32) (ts : U64) : Option (GetCqeResult α) :=
  if ts ≠ 0 then
    if hasFlag c.cq.features IORING_FEAT_EXT_ARG then
      let (sq, submit) := __ioUringFlushSq r.sq
      getCqeLoop c replies ⟨submit, waitNr, IORING_ENTER_EXT_ARG, true, ts⟩ false 0 [] { r with sq := sq }
    else
      match __ioUringSubmitTimeout c timeoutSqe replies r with
      | none => none
      | some (r, toSubmit, calls, replies) =>
        if toSubmit < 0 then some ⟨r, none, toSubmit, calls, replies⟩
        else (__ioUringGetCqe c replies r toSubmit.toBitVec waitNr).map fun res => { res with calls := calls ++ res.calls }
  else
    let (sq, toSubmit) := __ioUringFlushSq r.sq
    __ioUringGetCqe c replies { r with sq := sq } toSubmit waitNr

/-! ## The contract where nothing is submitted -/

theorem nonpos_cases {e : Int32} (h : e ≤ 0) : e = 0 ∨ e < 0 := by
  rw [Int32.le_iff_toInt_le] at h
  rw [Int32.lt_iff_toInt_lt, ← Int32.toInt_inj]
  have : (0 : Int32).toInt = 0 := rfl
  omega

theorem neg_of_ne_zero {e : Int32} (h : e ≤ 0) (hne : e ≠ 0) : e < 0 := (nonpos_cases h).resolve_left hne

/-- The first non-zero of two return values, when both are errors or zero. -/
theorem first_err_nonpos {err e : Int32} (herr : err ≤ 0) (he : e < 0) : (if err = 0 then e else err) < 0 := by
  split
  · exact he
  · exact neg_of_ne_zero herr ‹_›

section
variable {c : RingConf} {data : GetData} {looped : Bool} {err : Int32} {r : IoUring α} {pk : Peeked}

/-- With nothing to submit and CQEs to wait for, the loop enters the kernel exactly when fewer
CQEs are available than it waits for, except on a second pass with a timeout. -/
theorem getCqeMove_waiting (hw : data.waitNr ≠ 0) (hsub : data.submit = 0) :
    getCqeMove c data looped err r pk =
      if pk.err ≠ 0 then .stop (if err = 0 then pk.err else err)
      else if data.waitNr > pk.available then
        if looped && data.hasTs then .stop (if pk.cqe.isNone && data.argTs != 0 && err == 0 then -ETIME else err)
        else .enter (if hasFlag r.intFlags INT_FLAG_REG_RING then
          IORING_ENTER_GETEVENTS ||| data.getFlags ||| IORING_ENTER_REGISTERED_RING
          else IORING_ENTER_GETEVENTS ||| data.getFlags)
      else .stop err := by
  -- `simp` writes the literal zero of `U32` as `BitVec.ofNat 32 0`
  have hw0 : ¬ data.waitNr = BitVec.ofNat 32 0 := hw
  have hidle : (pk.cqe.isNone && data.waitNr == 0 && data.submit == 0) = false := by simp [hw0]
  unfold getCqeMove
  by_cases hgt : data.waitNr > pk.available
  · simp [hgt, sqRingNeedsEnter, hsub, hw0]
  · simp [hgt, sqRingNeedsEnter, hsub, hw0]

/-- A `break` of such a loop returns an error, or success with the CQE at the head. -/
theorem getCqeMove_stop (hw : data.waitNr ≠ 0) (hsub : data.submit = 0) (hts : data.hasTs → data.argTs ≠ 0)
    (herr : err ≤ 0)
    (hpk : (pk.cqe = none ∧ pk.available = 0 ∧ pk.err = 0) ∨ (pk.cqe = none ∧ pk.err < 0) ∨
      (pk.cqe = some (ioUringCqeIndex c.cq pk.ring.khead) ∧ pk.err = 0))
    {e : Int32} (h : getCqeMove c data looped err r pk = .stop e) :
    e < 0 ∨ (e = 0 ∧ pk.cqe = some (ioUringCqeIndex c.cq pk.ring.khead)) := by
  rw [getCqeMove_waiting hw hsub] at h
  rcases hpk with ⟨hc, ha, he⟩ | ⟨hc, he⟩ | ⟨hc, he⟩
  · -- an empty ring: only the timeout of a second pass stops the loop, with -ETIME
    have hgt : data.waitNr > pk.available := by
      have : data.waitNr.toNat ≠ 0 := fun e0 => hw (BitVec.eq_of_toNat_eq e0)
      rw [ha, gt_iff_lt, BitVec.lt_def]
      exact Nat.pos_of_ne_zero this
    rw [if_neg (not_not.2 he), if_pos hgt] at h
    split at h
    · rename_i hlt
      have hts0 : ¬ data.argTs = BitVec.ofNat 64 0 := hts (Bool.and_eq_true_iff.1 hlt).2
      have hb : (data.argTs != 0) = true := bne_iff_ne.2 hts0
      have hcond : (pk.cqe.isNone && data.argTs != 0 && err == 0) = decide (err = 0) := by
        rw [hc, hb, Option.isNone_none, Bool.true_and, Bool.true_and, beq_eq_decide]
      cases h
      left
      rw [hcond]
      by_cases h0 : err = 0
      · rw [if_pos (decide_eq_true h0)]
        decide
      · rw [if_neg (by simpa using h0)]
        exact neg_of_ne_zero herr h0
    · cases h
  · -- a failed internal timeout
    have hne : pk.err ≠ 0 := fun e0 => by rw [e0] at he; exact absurd he (by decide)
    rw [if_pos hne] at h
    cases h
    exact .inl (first_err_nonpos herr he)
  · -- a CQE at the head: whatever stops the loop keeps the error it has
    rw [if_neg (not_not.2 he)] at h
    have hres : e = err := by
      split at h
      · split at h
        · cases h
          simp [hc]
        · cases h
      · cases h
        rfl
    rcases nonpos_cases herr with h0 | h0
    · exact .inr ⟨hres.trans h0, hc⟩
    · exact .inl (hres ▸ h0)

end

/-- The three ways `__io_uring_peek_cqe` can come back, as the loop uses them. -/
theorem peekCqe_loop_cases (c : RingConf) (s : CqState) : ∃ pk, __ioUringPeekCqe c.cq s = some pk ∧
    ((pk.cqe = none ∧ pk.available = 0 ∧ pk.err = 0) ∨ (pk.cqe = none ∧ pk.err < 0) ∨
      (pk.cqe = some (ioUringCqeIndex c.cq pk.ring.khead) ∧ pk.err = 0)) := by
  obtain ⟨pk, hpk, -, -, hcases⟩ := peekCqe_cases (c := c.cq) s
  exact ⟨pk, hpk, hcases.imp_right (Or.imp_right fun h => ⟨h.1, h.2.2.2⟩)⟩

@[simp] theorem kernelEnter_cq_khead (c : RingConf) (r : IoUring α) (k : KernelReply) :
    (kernelEnter c r k).cq.khead = r.cq.khead := cqPost_khead _ _

/-- **The wait contract where nothing is submitted.** When the loop has nothing to submit and
waits for at least one CQE, and the kernel accepts no SQEs (it is given none), every return of
the loop is an error, or success with `*cqe_ptr` at the head CQE. The induction is on the
kernel's replies, one per `io_uring_enter`: the return value stays `≤ 0` and nothing is left
to submit from one pass to the next. -/
theorem getCqeLoop_contract (c : RingConf) (res : GetCqeResult α) (replies : List KernelReply)
    (hrep : ∀ k ∈ replies, k.ret ≤ 0) :
    ∀ (data : GetData) (looped : Bool) (err : Int32) (calls : List EnterCall) (r : IoUring α),
      data.waitNr ≠ 0 → data.submit = 0 → (data.hasTs → data.argTs ≠ 0) → err ≤ 0 →
      getCqeLoop c replies data looped err calls r = some res →
      res.err < 0 ∨ (res.err = 0 ∧ res.cqe = some (ioUringCqeIndex c.cq res.ring.cq.khead)) := by
  induction replies with
  | nil =>
    intro data looped err calls r hw hsub hts herr h
    obtain ⟨pk, hpk, hcases⟩ := peekCqe_loop_cases c r.cq
    rw [getCqeLoop, hpk] at h
    simp only at h
    cases hm : getCqeMove c data looped err { r with cq := pk.ring } pk with
    | stop e =>
      rw [hm] at h
      cases h
      exact getCqeMove_stop hw hsub hts herr hcases hm
    | enter f =>
      rw [hm] at h
      cases h
  | cons k ks ih =>
    intro data looped err calls r hw hsub hts herr h
    obtain ⟨pk, hpk, hcases⟩ := peekCqe_loop_cases c r.cq
    rw [getCqeLoop, hpk] at h
    simp only at h
    cases hm : getCqeMove c data looped err { r with cq := pk.ring } pk with
    | stop e =>
      rw [hm] at h
      cases h
      exact getCqeMove_stop hw hsub hts herr hcases hm
    | enter f =>
      rw [hm] at h
      simp only at h
      by_cases hneg : k.ret < 0
      · -- `io_uring_enter` failed: its error is returned unless one is already recorded
        rw [if_pos hneg] at h
        cases h
        exact .inl (first_err_nonpos herr hneg)
      · rw [if_neg hneg] at h
        have hk0 : k.ret = 0 := (nonpos_cases (hrep k List.mem_cons_self)).resolve_right hneg
        have hsub' : data.submit - k.ret.toBitVec = 0 := by rw [hsub, hk0]; rfl
        have hks : ∀ k' ∈ ks, k'.ret ≤ 0 := fun k' hk' => hrep k' (List.mem_cons_of_mem _ hk')
        by_cases hsome : pk.cqe.isSome
        · -- a CQE was found before entering: the loop returns it
          rw [if_pos hsome] at h
          cases h
          rcases hcases with ⟨hc, -⟩ | ⟨hc, -⟩ | ⟨hc, -⟩
          · rw [hc] at hsome; cases hsome
          · rw [hc] at hsome; cases hsome
          · rcases nonpos_cases herr with h0 | h0
            · exact .inr ⟨h0, by rw [kernelEnter_cq_khead]; exact hc⟩
            · exact .inl h0
        · rw [if_neg hsome] at h
          cases looped with
          | false =>
            -- the first pass records `ret`, which is zero here
            exact ih hks { data with submit := data.submit - k.ret.toBitVec } true k.ret _ _ hw hsub' hts
              (by rw [hk0]; decide) h
          | true => exact ih hks { data with submit := data.submit - k.ret.toBitVec } true err _ _ hw hsub' hts herr h

/-- `io_uring_wait_cqe_nr` with `wait_nr ≥ 1` keeps the contract. -/
theorem waitCqeNr_contract (c : RingConf) (replies : List KernelReply) (hrep : ∀ k ∈ replies, k.ret ≤ 0)
    (r : IoUring α) {waitNr : U32} (hw : waitNr ≠ 0) {res : GetCqeResult α}
    (h : ioUringWaitCqeNr c replies r waitNr = some res) :
    res.err < 0 ∨ (res.err = 0 ∧ res.cqe = some (ioUringCqeIndex c.cq res.ring.cq.khead)) :=
  getCqeLoop_contract c res replies hrep _ false 0 [] r hw rfl (fun h => by cases h) (by decide) h

/-- `io_uring_wait_cqe` keeps the contract: its first peek returns only a CQE at the head. -/
theorem waitCqe_contract (c : RingConf) (replies : List KernelReply) (hrep : ∀ k ∈ replies, k.ret ≤ 0)
    (r : IoUring α) {res : GetCqeResult α} (h : ioUringWaitCqe c replies r = some res) :
    res.err < 0 ∨ (res.err = 0 ∧ res.cqe = some (ioUringCqeIndex c.cq res.ring.cq.khead)) := by
  obtain ⟨pk, hpk, hcases⟩ := peekCqe_loop_cases c r.cq
  rw [ioUringWaitCqe, hpk] at h
  simp only at h
  split at h
  · rename_i hfound
    cases h
    rcases hcases with ⟨hc, -⟩ | ⟨hc, -⟩ | ⟨hc, -⟩
    · rw [hc] at hfound; simp at hfound
    · rw [hc] at hfound; simp at hfound
    · exact .inr ⟨rfl, hc⟩
  · exact waitCqeNr_contract c replies hrep _ (by decide) h

/-- `io_uring_wait_cqes` without a timeout, or on a kernel with IORING_FEAT_EXT_ARG, submits
nothing and keeps the contract. -/
theorem waitCqes_contract (c : RingConf) (timeoutSqe : α) (replies : List KernelReply)
    (hrep : ∀ k ∈ replies, k.ret ≤ 0) (r : IoUring α) {waitNr : U32} (hw : waitNr ≠ 0) {ts : U64}
    (hpath : ts = 0 ∨ hasFlag c.cq.features IORING_FEAT_EXT_ARG = true) {res : GetCqeResult α}
    (h : ioUringWaitCqes c timeoutSqe replies r waitNr ts = some res) :
    res.err < 0 ∨ (res.err = 0 ∧ res.cqe = some (ioUringCqeIndex c.cq res.ring.cq.khead)) := by
  unfold ioUringWaitCqes at h
  by_cases hts : ts = 0
  · rw [if_neg (not_not.2 hts)] at h
    exact getCqeLoop_contract c res replies hrep _ false 0 [] r hw rfl (fun h => by cases h) (by decide) h
  · rw [if_pos hts, if_pos (hpath.resolve_left hts)] at h
    exact getCqeLoop_contract c res replies hrep _ false 0 [] r hw rfl (fun _ => hts) (by decide) h

/-! ## Where the contract fails -/

/-- The SQ of `sqConfTwo` and a four-entry CQ, on a kernel with the given features. -/
def waitRingConf (features : U32) : RingConf :=
  ⟨⟨0, 2, 1, 1, sqConfTwo.log_le, sqConfTwo.entries_eq, sqConfTwo.mask_eq⟩,
    ⟨0, features, 4, 3, 2, by decide, rfl, rfl⟩, rfl⟩

/-- Both rings empty; the application has prepared `prepared` SQEs it has not submitted. -/
def waitRing (prepared : U32) : IoUring Nat :=
  ⟨⟨0, prepared, 0, 0, fun _ => 0, id⟩, ⟨0, 0, fun _ => ⟨0, 0, 0⟩⟩, 0, 0, 3⟩

/-- The first return value of `io_uring_enter`, a submit count, is kept as the result. With
IORING_FEAT_EXT_ARG, `io_uring_submit_and_wait_timeout` submitting one SQE whose timeout expires
with no CQE returns 1 with `*cqe_ptr = NULL` (not -ETIME); without it, `io_uring_wait_cqe_timeout`
whose internal timeout completes with -ETIME also returns 1 with `*cqe_ptr = NULL`. -/
theorem wait_timeout_returns_submit_count :
    (ioUringSubmitAndWaitTimeout (waitRingConf IORING_FEAT_EXT_ARG) 0 [⟨1, [], 0⟩] (waitRing 1) 1 4096).map
        (fun res => (res.cqe, res.err)) = some (none, 1) ∧
      (ioUringWaitCqeTimeout (waitRingConf 0) 0 [⟨1, [⟨LIBURING_UDATA_TIMEOUT, -ETIME, 0⟩], 0⟩] (waitRing 0)
        4096).map (fun res => (res.cqe, res.err)) = some (none, 1) := by
  decide

end Liburing
