import Liburing.Wait
import Liburing.CqFifo
/-!
# The loop of `_io_uring_get_cqe` against the kernel (queue.c:62-153, :299-314; liburing.h:1319-1323, :1377-1396)

| here | there |
| --- | --- |
| `getCqeLoop_cases` | one pass of the loop of `_io_uring_get_cqe` (queue.c:70-131) |
| `peek_cqe_never_waits` | `io_uring_peek_cqe` (liburing.h:1377-1385) |
| `RunsCq` | what `io_uring_peek_cqe`, `io_uring_wait_cqe` and `io_uring_wait_cqes` do to the CQ |

The loop is handled by one inversion lemma: a pass peeks, then stops, or enters the kernel once
with the next reply and stops or goes round again. Each induction on the replies then uses only
that lemma. For `io_uring_peek_cqe` it gives that the function makes at most one call and never
waits. For every wait it gives that what the wait does to the CQ is a run of the steps of
`CqFifo.lean`: each peek is the `peekCqe` step, and the kernel's side of each call is a `post`
and a `setKflags`. So the FIFO results proved there for any run hold of the waits as well.
-/
set_option linter.style.nameCheck false

namespace Liburing

variable {α : Type}

/-! ## One pass of the loop -/

section
variable {c : RingConf} {replies : List KernelReply} {data : GetData} {looped : Bool} {err : Int32}
  {calls : List EnterCall} {r : IoUring α} {res : GetCqeResult α}

/-- What one pass of `_io_uring_get_cqe` can do after its peek: stop with the move's value, or
enter the kernel with the next reply and then return its error, return the CQE found before
entering, or go round again with the submit count lowered by what the kernel took. -/
theorem getCqeLoop_cases (h : getCqeLoop c replies data looped err calls r = some res) :
    ∃ pk, __ioUringPeekCqe c.cq r.cq = some pk ∧
      ((∃ e, getCqeMove c data looped err { r with cq := pk.ring } pk = .stop e ∧
          res = ⟨{ r with cq := pk.ring }, pk.cqe, e, calls, replies⟩) ∨
        ∃ flags k ks, getCqeMove c data looped err { r with cq := pk.ring } pk = .enter flags ∧
          replies = k :: ks ∧
          ((k.ret < 0 ∧ res = ⟨kernelEnter c { r with cq := pk.ring } k, pk.cqe, if err = 0 then k.ret else err,
              calls ++ [⟨r.enterRingFd, data.submit, data.waitNr, flags⟩], ks⟩) ∨
            (¬ k.ret < 0 ∧ pk.cqe.isSome ∧ res = ⟨kernelEnter c { r with cq := pk.ring } k, pk.cqe, err,
              calls ++ [⟨r.enterRingFd, data.submit, data.waitNr, flags⟩], ks⟩) ∨
            (¬ k.ret < 0 ∧ pk.cqe.isSome = false ∧
              getCqeLoop c ks { data with submit := data.submit - k.ret.toBitVec } true
                (if looped then err else k.ret) (calls ++ [⟨r.enterRingFd, data.submit, data.waitNr, flags⟩])
                (kernelEnter c { r with cq := pk.ring } k) = some res))) := by
  rw [getCqeLoop] at h
  cases hpk : __ioUringPeekCqe c.cq r.cq with
  | none => rw [hpk] at h; cases h
  | some pk =>
    rw [hpk] at h
    refine ⟨pk, rfl, ?_⟩
    simp only at h
    cases hm : getCqeMove c data looped err { r with cq := pk.ring } pk with
    | stop e =>
      rw [hm] at h
      exact .inl ⟨e, rfl, (Option.some.inj h).symm⟩
    | enter flags =>
      rw [hm] at h
      cases replies with
      | nil => cases h
      | cons k ks =>
        refine .inr ⟨flags, k, ks, rfl, rfl, ?_⟩
        simp only at h
        by_cases hneg : k.ret < 0
        · rw [if_pos hneg] at h
          exact .inl ⟨hneg, (Option.some.inj h).symm⟩
        · rw [if_neg hneg] at h
          by_cases hsome : pk.cqe.isSome
          · rw [if_pos hsome] at h
            exact .inr (.inl ⟨hneg, hsome, (Option.some.inj h).symm⟩)
          · rw [if_neg hsome] at h
            refine .inr (.inr ⟨hneg, by simpa using hsome, ?_⟩)
            -- both branches of `if (!looped)` go round with `looped` set
            cases looped with
            | false => exact h
            | true => exact h

end

/-! ## `io_uring_peek_cqe` never waits -/

section
variable {c : RingConf} {data : GetData} {looped : Bool} {err : Int32} {r : IoUring α} {pk : Peeked}

/-- A pass with nothing to submit and nothing to wait for: it stops on an error or a CQE, and
with nothing found it enters the kernel once, to flush the CQ, on its first pass only. -/
theorem getCqeMove_idle (hw : data.waitNr = 0) (hs : data.submit = 0) :
    getCqeMove c data looped err r pk =
      if pk.err ≠ 0 then .stop (if err = 0 then pk.err else err)
      else if pk.cqe.isNone then
        if looped || !cqRingNeedsEnter c.cq.flags r.sqKflags then .stop (if err = 0 then -EAGAIN else err)
        else .enter (if hasFlag r.intFlags INT_FLAG_REG_RING then
          IORING_ENTER_GETEVENTS ||| data.getFlags ||| IORING_ENTER_REGISTERED_RING
          else IORING_ENTER_GETEVENTS ||| data.getFlags)
      else .stop err := by
  unfold getCqeMove
  by_cases he : pk.err ≠ 0
  · simp [he]
  · cases hc : pk.cqe
    · -- nothing found: a pass that enters has not looped, so the timeout test is false
      cases looped <;> simp [he, hw, hs, sqRingNeedsEnter]
    · simp [he, hw, hs, sqRingNeedsEnter]

/-- Such a pass enters only before it has looped, when the peek found nothing and the CQ needs
a flush, with IORING_ENTER_GETEVENTS and the ring's registered-ring flag. -/
theorem getCqeMove_idle_enter (hw : data.waitNr = 0) (hs : data.submit = 0) {flags : U32}
    (h : getCqeMove c data looped err r pk = .enter flags) :
    looped = false ∧ pk.err = 0 ∧ pk.cqe = none ∧ cqRingNeedsEnter c.cq.flags r.sqKflags = true ∧
      flags = if hasFlag r.intFlags INT_FLAG_REG_RING then
        IORING_ENTER_GETEVENTS ||| data.getFlags ||| IORING_ENTER_REGISTERED_RING
        else IORING_ENTER_GETEVENTS ||| data.getFlags := by
  rw [getCqeMove_idle hw hs] at h
  by_cases he : pk.err ≠ 0
  · rw [if_pos he] at h
    cases h
  rw [if_neg he] at h
  cases hc : pk.cqe with
  | some i =>
    rw [hc] at h
    cases h
  | none =>
    rw [hc, Option.isNone_none, if_pos rfl] at h
    by_cases hl : (looped || !cqRingNeedsEnter c.cq.flags r.sqKflags) = true
    · rw [if_pos hl] at h
      cases h
    rw [if_neg hl] at h
    cases h
    -- neither looped nor without a flush to make
    simp only [Bool.or_eq_true, Bool.not_eq_eq_eq_not, Bool.not_true, not_or] at hl
    exact ⟨by simpa using hl.1, not_not.1 he, rfl, by simpa using hl.2, rfl⟩

/-- Where such a pass stops with no error recorded: on the error of a failed internal timeout,
with -EAGAIN when nothing was found, or with success and the CQE at the head. -/
theorem getCqeMove_idle_stop (hw : data.waitNr = 0) (hs : data.submit = 0)
    (hpk : (pk.cqe = none ∧ pk.available = 0 ∧ pk.err = 0) ∨ (pk.cqe = none ∧ pk.err < 0) ∨
      (pk.cqe = some (ioUringCqeIndex c.cq pk.ring.khead) ∧ pk.err = 0))
    {e : Int32} (h : getCqeMove c data looped 0 r pk = .stop e) :
    e < 0 ∨ (e = 0 ∧ pk.cqe = some (ioUringCqeIndex c.cq pk.ring.khead)) := by
  rw [getCqeMove_idle hw hs] at h
  rcases hpk with ⟨hc, -, he⟩ | ⟨hc, he⟩ | ⟨hc, he⟩
  · -- nothing found: -EAGAIN, or an enter, which is not a stop
    rw [if_neg (not_not.2 he), hc, Option.isNone_none, if_pos rfl] at h
    split at h
    · cases h
      exact .inl (by decide)
    · cases h
  · have hne : pk.err ≠ 0 := fun e0 => by rw [e0] at he; exact absurd he (by decide)
    rw [if_pos hne] at h
    cases h
    exact .inl he
  · rw [if_neg (not_not.2 he), hc] at h
    cases h
    exact .inr ⟨rfl, hc⟩

end

section
variable {c : RingConf} {replies : List KernelReply} {r : IoUring α} {res : GetCqeResult α}

/-- The second pass of `io_uring_peek_cqe`'s loop, after a flush that returned 0: it stops at
once, with an error, -EAGAIN or the head CQE. -/
theorem idleLoop_looped {data : GetData} {calls : List EnterCall} (hw : data.waitNr = 0) (hs : data.submit = 0)
    (h : getCqeLoop c replies data true 0 calls r = some res) :
    res.calls = calls ∧ (res.err < 0 ∨ (res.err = 0 ∧ res.cqe = some (ioUringCqeIndex c.cq res.ring.cq.khead))) := by
  obtain ⟨pk, hpk, ⟨e, hm, rfl⟩ | ⟨flags, k, ks, hm, -, -⟩⟩ := getCqeLoop_cases h
  · obtain ⟨pk', hpk', hcases⟩ := peekCqe_loop_cases c r.cq
    obtain rfl : pk' = pk := Option.some.inj (hpk'.symm.trans hpk)
    exact ⟨rfl, getCqeMove_idle_stop hw hs hcases hm⟩
  · -- a pass that has looped never enters
    exact absurd (getCqeMove_idle_enter hw hs hm).1 (by decide)

/-- The loop of `io_uring_peek_cqe` (`wait_nr = 0`, nothing to submit), for a kernel that consumes
no SQE: at most one call, a flush of the CQ made only when it needs one, and then an error,
-EAGAIN or the head CQE. -/
theorem idleLoop_spec (hrep : ∀ k ∈ replies, k.ret ≤ 0)
    (h : getCqeLoop c replies ⟨0, 0, 0, false, 0⟩ false 0 [] r = some res) :
    res.calls.length ≤ 1 ∧
      (∀ call ∈ res.calls, call.toSubmit = 0 ∧ call.minComplete = 0 ∧
        hasFlag call.flags IORING_ENTER_GETEVENTS = true ∧ cqRingNeedsEnter c.cq.flags r.sqKflags = true) ∧
      (res.err < 0 ∨ (res.err = 0 ∧ res.cqe = some (ioUringCqeIndex c.cq res.ring.cq.khead))) := by
  obtain ⟨pk', hpk', hcases⟩ := peekCqe_loop_cases c r.cq
  obtain ⟨pk, hpk, ⟨e, hm, rfl⟩ | ⟨flags, k, ks, hm, rfl, hcase⟩⟩ := getCqeLoop_cases h
  · obtain rfl : pk' = pk := Option.some.inj (hpk'.symm.trans hpk)
    exact ⟨by simp, by simp, getCqeMove_idle_stop rfl rfl hcases hm⟩
  · -- the pass entered: nothing was found and the CQ needed a flush
    obtain ⟨-, -, hnone, hflush, rfl⟩ := getCqeMove_idle_enter rfl rfl hm
    have hcall : ∀ call ∈ [(⟨r.enterRingFd, 0, 0, if hasFlag r.intFlags INT_FLAG_REG_RING = true then
        IORING_ENTER_GETEVENTS ||| 0 ||| IORING_ENTER_REGISTERED_RING else IORING_ENTER_GETEVENTS ||| 0⟩ : EnterCall)],
        call.toSubmit = 0 ∧ call.minComplete = 0 ∧ hasFlag call.flags IORING_ENTER_GETEVENTS = true ∧
          cqRingNeedsEnter c.cq.flags r.sqKflags = true := by
      intro call hc
      rw [List.mem_singleton.1 hc]
      refine ⟨rfl, rfl, ?_, hflush⟩
      split <;> simp only [hasFlag_or] <;> decide
    rcases hcase with ⟨hneg, rfl⟩ | ⟨-, hsome, -⟩ | ⟨hneg, -, hrec⟩
    · -- the flush failed: its error is returned
      exact ⟨by simp, hcall, .inl (by simpa using hneg)⟩
    · -- the peek found nothing, so no CQE is returned this way
      rw [hnone] at hsome
      cases hsome
    · -- the flush took no SQE, so nothing is left to submit on the second pass
      have hk0 : k.ret = 0 := (nonpos_cases (hrep k List.mem_cons_self)).resolve_right hneg
      simp only [Bool.false_eq_true, if_false, hk0] at hrec
      obtain ⟨hcalls, hres⟩ := idleLoop_looped rfl rfl hrec
      exact ⟨by simp [hcalls], by rw [hcalls]; exact hcall, hres⟩

end

/-- **`io_uring_peek_cqe` never waits.** For every ring state and every kernel that consumes no SQE
when it is given none, `io_uring_peek_cqe` makes at most one `io_uring_enter` call. That call
submits nothing and waits for no completion, and is made only when the peek found nothing and the
CQ needs flushing (IORING_SETUP_IOPOLL, or CQEs overflowed or waiting for task work). The
function returns 0 with the CQE at the head, or a negative errno. -/
theorem peek_cqe_never_waits (c : RingConf) (replies : List KernelReply) (hrep : ∀ k ∈ replies, k.ret ≤ 0)
    (r : IoUring α) (res : GetCqeResult α) (h : ioUringPeekCqe c replies r = some res) :
    res.calls.length ≤ 1 ∧
      (∀ call ∈ res.calls, call.toSubmit = 0 ∧ call.minComplete = 0 ∧
        hasFlag call.flags IORING_ENTER_GETEVENTS = true ∧ cqRingNeedsEnter c.cq.flags r.sqKflags = true) ∧
      (res.err < 0 ∨ (res.err = 0 ∧ res.cqe = some (ioUringCqeIndex c.cq res.ring.cq.khead))) := by
  obtain ⟨pk, hpk, hcases⟩ := peekCqe_loop_cases c r.cq
  unfold ioUringPeekCqe at h
  rw [hpk] at h
  simp only at h
  split at h
  · -- the first peek found a CQE: no call
    rename_i hfound
    cases h
    refine ⟨by simp, by simp, ?_⟩
    rcases hcases with ⟨hc, -⟩ | ⟨hc, -⟩ | ⟨hc, -⟩
    · simp [hc] at hfound
    · simp [hc] at hfound
    · exact .inr ⟨rfl, hc⟩
  · -- nothing found: the loop with nothing to wait for, on the ring the peek left
    have hloop := idleLoop_spec hrep h
    exact hloop

/-- An empty ring whose kernel asks for task work to be run before CQEs are posted. -/
def taskrunRing : IoUring Nat := { waitRing 0 with sqKflags := IORING_SQ_TASKRUN }

/-- The flush that runs the task work posts one CQE, which the second peek returns. -/
theorem peek_cqe_flushes_once :
    ∃ res, ioUringPeekCqe (waitRingConf 0) [⟨0, [⟨7, 0, 0⟩], 0⟩] taskrunRing = some res ∧
      res.calls.length = 1 ∧ res.err = 0 ∧
      (res.calls.length ≤ 1 ∧
        (∀ call ∈ res.calls, call.toSubmit = 0 ∧ call.minComplete = 0 ∧
          hasFlag call.flags IORING_ENTER_GETEVENTS = true ∧
          cqRingNeedsEnter (waitRingConf 0).cq.flags taskrunRing.sqKflags = true) ∧
        (res.err < 0 ∨ (res.err = 0 ∧ res.cqe = some (ioUringCqeIndex (waitRingConf 0).cq res.ring.cq.khead)))) := by
  have hv : (ioUringPeekCqe (waitRingConf 0) [⟨0, [⟨7, 0, 0⟩], 0⟩] taskrunRing).map
      (fun res => (res.calls.length, res.err)) = some (1, 0) := by
    decide +kernel
  obtain ⟨res, hres, hpair⟩ := Option.map_eq_some_iff.1 hv
  obtain ⟨h1, h0⟩ := Prod.mk.inj hpair
  exact ⟨res, hres, h1, h0, peek_cqe_never_waits _ _ (by decide) _ res hres⟩

/-! ## The waits as runs of the CQ -/

/-- The moves of `CqFifo.lean` a wait makes: its peeks, and the kernel's side of each
`io_uring_enter` call. -/
def CqOp.isWaitMove : CqOp → Bool
  | .peekCqe | .post _ | .setKflags _ => true
  | _ => false

/-- What a wait does to the CQ is a run of `CqFifo.lean` made of its moves: from the ring it
started on, the run leaves the CQ and the SQ flag word as the wait leaves them, with the
application holding the CQE the wait returns. -/
def RunsCq (c : RingConf) (r : IoUring α) (got : List U32) (res : GetCqeResult α) : Prop :=
  ∃ ops : List CqOp, (∀ op ∈ ops, op.isWaitMove) ∧
    SlotRing.run (cqStep c.cq) ⟨r.cq, r.sqKflags, got⟩ ops = ⟨res.ring.cq, res.ring.sqKflags, res.cqe.toList⟩

section
variable {c : RingConf} {r : IoUring α} {got : List U32} {res : GetCqeResult α} {pk : Peeked}

/-- A peek of the wait is the `peekCqe` move. -/
theorem run_peekCqe (hpk : __ioUringPeekCqe c.cq r.cq = some pk) (got : List U32) :
    SlotRing.run (cqStep c.cq) ⟨r.cq, r.sqKflags, got⟩ [.peekCqe] =
      ⟨({ r with cq := pk.ring } : IoUring α).cq, ({ r with cq := pk.ring } : IoUring α).sqKflags, pk.cqe.toList⟩ := by
  simp only [SlotRing.run_cons, SlotRing.run_nil, cqStep, hpk]

/-- The kernel's side of an `io_uring_enter` call is a posting, then the SQ flag word it leaves. -/
theorem run_kernelEnter (r : IoUring α) (k : KernelReply) (got : List U32) :
    SlotRing.run (cqStep c.cq) ⟨r.cq, r.sqKflags, got⟩ [.post k.posted, .setKflags k.kflags] =
      ⟨(kernelEnter c r k).cq, (kernelEnter c r k).sqKflags, got⟩ := rfl

/-- A wait that ends where it is: the empty run. -/
theorem RunsCq.here (hr : res.ring = r) (hg : got = res.cqe.toList) : RunsCq c r got res :=
  ⟨[], by simp, by rw [SlotRing.run_nil, hr, hg]⟩

/-- Moves of a wait, followed by a run of the rest of the wait. -/
theorem RunsCq.prepend {pre : List CqOp} (hpre : ∀ op ∈ pre, op.isWaitMove) {r' : IoUring α} {got' : List U32}
    (hrun : SlotRing.run (cqStep c.cq) ⟨r.cq, r.sqKflags, got⟩ pre = ⟨r'.cq, r'.sqKflags, got'⟩)
    (h : RunsCq c r' got' res) : RunsCq c r got res := by
  obtain ⟨ops, hops, hr⟩ := h
  refine ⟨pre ++ ops, fun op hop => ?_, by rw [SlotRing.run_append, hrun, hr]⟩
  rcases List.mem_append.1 hop with hop | hop
  · exact hpre op hop
  · exact hops op hop

/-- A pass of the loop peeks and then enters the kernel once. -/
theorem run_peek_enter (hpk : __ioUringPeekCqe c.cq r.cq = some pk) (k : KernelReply) (got : List U32) :
    SlotRing.run (cqStep c.cq) ⟨r.cq, r.sqKflags, got⟩ [.peekCqe, .post k.posted, .setKflags k.kflags] =
      ⟨(kernelEnter c { r with cq := pk.ring } k).cq, (kernelEnter c { r with cq := pk.ring } k).sqKflags,
        pk.cqe.toList⟩ := by
  rw [show [CqOp.peekCqe, .post k.posted, .setKflags k.kflags] = [.peekCqe] ++ [.post k.posted, .setKflags k.kflags]
    from rfl, SlotRing.run_append, run_peekCqe hpk]
  exact run_kernelEnter _ k _

/-- Every run of the loop of `_io_uring_get_cqe` is a run of the CQ. The induction is on the
kernel's replies: a pass peeks, and either stops there or enters the kernel once, after which
it stops or goes round on the next reply. -/
theorem getCqeLoop_runsCq (replies : List KernelReply) :
    ∀ (data : GetData) (looped : Bool) (err : Int32) (calls : List EnterCall) (r : IoUring α) (got : List U32)
      (res : GetCqeResult α), getCqeLoop c replies data looped err calls r = some res → RunsCq c r got res := by
  induction replies with
  | nil =>
    intro data looped err calls r got res h
    obtain ⟨pk, hpk, ⟨e, -, rfl⟩ | ⟨flags, k, ks, -, hnil, -⟩⟩ := getCqeLoop_cases h
    · exact RunsCq.prepend (by simp [CqOp.isWaitMove]) (run_peekCqe hpk got) (RunsCq.here rfl rfl)
    · cases hnil
  | cons k0 ks ih =>
    intro data looped err calls r got res h
    obtain ⟨pk, hpk, ⟨e, -, rfl⟩ | ⟨flags, k, ks', -, hks, hcase⟩⟩ := getCqeLoop_cases h
    · exact RunsCq.prepend (by simp [CqOp.isWaitMove]) (run_peekCqe hpk got) (RunsCq.here rfl rfl)
    obtain ⟨rfl, rfl⟩ := List.cons.inj hks
    have hmoves : ∀ op ∈ [CqOp.peekCqe, .post k0.posted, .setKflags k0.kflags], op.isWaitMove := by
      simp [CqOp.isWaitMove]
    rcases hcase with ⟨-, rfl⟩ | ⟨-, -, rfl⟩ | ⟨-, -, hrec⟩
    · -- the kernel failed: the wait leaves with the ring it left
      exact RunsCq.prepend hmoves (run_peek_enter hpk k0 got) (RunsCq.here rfl rfl)
    · exact RunsCq.prepend hmoves (run_peek_enter hpk k0 got) (RunsCq.here rfl rfl)
    · exact RunsCq.prepend hmoves (run_peek_enter hpk k0 got) (ih _ _ _ _ _ _ _ hrec)

/-- `io_uring_peek_cqe` and `io_uring_wait_cqe` peek first, then run the loop on the ring the
peek left. -/
theorem peek_then_loop_runsCq {waitNr : U32} {replies : List KernelReply}
    (h : (match __ioUringPeekCqe c.cq r.cq with
      | none => none
      | some pk =>
        if pk.err = 0 ∧ pk.cqe.isSome then some ⟨{ r with cq := pk.ring }, pk.cqe, 0, [], replies⟩
        else ioUringWaitCqeNr c replies { r with cq := pk.ring } waitNr) = some res) :
    RunsCq c r got res := by
  obtain ⟨pk, hpk, -⟩ := peekCqe_loop_cases c r.cq
  rw [hpk] at h
  simp only at h
  split at h
  · cases h
    exact RunsCq.prepend (by simp [CqOp.isWaitMove]) (run_peekCqe hpk got) (RunsCq.here rfl rfl)
  · exact RunsCq.prepend (by simp [CqOp.isWaitMove]) (run_peekCqe hpk got) (getCqeLoop_runsCq _ _ _ _ _ _ _ _ h)

end

/-- **The waits are runs of the CQ.** For every ring state and every answer of the kernel, what
`io_uring_peek_cqe`, `io_uring_wait_cqe` and `io_uring_wait_cqes` (without a timeout, or with
IORING_FEAT_EXT_ARG) do to the CQ is a run of `CqFifo.lean`'s peeks and kernel moves, from any
CQEs the application held to the one the wait returns. A peek and a flag word are always legal
moves, so where the kernel's postings fit in the ring the run is legal and the FIFO law of
`cq_ring_lossless_fifo` covers it. When the kernel consumes no SQE, `io_uring_wait_cqe` and
`io_uring_wait_cqes` return an error, or 0 with the CQE at the head. -/
theorem waits_run_the_cq (c : RingConf) (timeoutSqe : α) (replies : List KernelReply)
    (hrep : ∀ k ∈ replies, k.ret ≤ 0) (r : IoUring α) (got : List U32) :
    (∀ res, ioUringPeekCqe c replies r = some res → RunsCq c r got res) ∧
      (∀ res, ioUringWaitCqe c replies r = some res → RunsCq c r got res ∧
        (res.err < 0 ∨ (res.err = 0 ∧ res.cqe = some (ioUringCqeIndex c.cq res.ring.cq.khead)))) ∧
      ∀ waitNr ts, waitNr ≠ 0 → (ts = 0 ∨ hasFlag c.cq.features IORING_FEAT_EXT_ARG = true) →
        ∀ res, ioUringWaitCqes c timeoutSqe replies r waitNr ts = some res → RunsCq c r got res ∧
          (res.err < 0 ∨ (res.err = 0 ∧ res.cqe = some (ioUringCqeIndex c.cq res.ring.cq.khead))) := by
  refine ⟨fun res h => peek_then_loop_runsCq h, fun res h => ⟨peek_then_loop_runsCq h,
    waitCqe_contract c replies hrep r h⟩, fun waitNr ts hw hpath res h => ⟨?_, waitCqes_contract c timeoutSqe
    replies hrep r hw hpath h⟩⟩
  -- without the internal timeout, `io_uring_wait_cqes` is the loop itself
  unfold ioUringWaitCqes at h
  by_cases hts : ts = 0
  · rw [if_neg (not_not.2 hts)] at h
    exact getCqeLoop_runsCq _ _ _ _ _ _ _ _ h
  · rw [if_pos hts, if_pos (hpath.resolve_left hts)] at h
    exact getCqeLoop_runsCq _ _ _ _ _ _ _ _ h

/-- On the task-work ring, `io_uring_wait_cqe` flushes once and returns the CQE the flush
posted: a peek, the kernel's moves, and a second peek. -/
theorem wait_cqe_runs_taskrun :
    ∃ res, ioUringWaitCqe (waitRingConf 0) [⟨0, [⟨7, 0, 0⟩], 0⟩] taskrunRing = some res ∧ res.err = 0 ∧
      RunsCq (waitRingConf 0) taskrunRing [] res := by
  have hv : (ioUringWaitCqe (waitRingConf 0) [⟨0, [⟨7, 0, 0⟩], 0⟩] taskrunRing).map GetCqeResult.err = some 0 := by
    decide +kernel
  obtain ⟨res, hres, herr⟩ := Option.map_eq_some_iff.1 hv
  exact ⟨res, hres, herr, ((waits_run_the_cq (waitRingConf 0) 0 _ (by decide) taskrunRing []).2.1 res hres).1⟩

end Liburing
