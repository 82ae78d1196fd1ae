import Liburing.Defs
import Liburing.Ring.Counter
import Liburing.Ring.Window
import Liburing.Ring.Fifo
/-!
# The completion queue (liburing.h:283-324, :1262-1371; queue.c:144-198)

| here | there |
| --- | --- |
| `CqConf`            | the fields of `struct io_uring` / `io_uring_cq` fixed at setup: `ring->flags`, `ring->features`, `cq->ring_entries`, `cq->ring_mask` |
| `CqState`           | `*cq->khead`, `*cq->ktail` and the `cqes` memory |
| `ioUringCqeIndex`   | `io_uring_cqe_index` (liburing.h:286), also written out in `__io_uring_peek_cqe` and `io_uring_peek_batch_cqe` |
| `ioUringCqReady`, `ioUringCqAdvance`, `ioUringCqeSeen` | liburing.h:1262, :303, :318 |
| `peekCqeLoop`, `__ioUringPeekCqe` | the `do … while (1)` of `__io_uring_peek_cqe` (liburing.h:1331) |
| `walkCqes`          | the loops of `io_uring_for_each_cqe` (liburing.h:289) and of `io_uring_peek_batch_cqe` (queue.c:180) |
| `ioUringPeekBatchCqe` | `io_uring_peek_batch_cqe` (queue.c:162), with `io_uring_get_events` as the kernel's move |
| `cqPost`            | the kernel posting CQEs at `cqes[(t & mask) << shift]` |

A CQE index is the position of a `struct io_uring_cqe` in `cqes`; under IORING_SETUP_CQE32 a
CQE spans two of them and its index is shifted by one.

The ring is a FIFO whose producer publishes at once: the queue is the window `[khead, ktail)`.
The application's side of a consumption, the CQEs it obtained and has not released yet, is
part of the state of a run (`CqSys`).
-/
set_option linter.style.nameCheck false

namespace Liburing

open SlotRing

/-- The parts of the ring that setup fixes: the CQ has `2^logEntries ≤ 65536` entries and the
mask the kernel publishes is `ring_entries - 1`. -/
structure CqConf where
  flags : U32
  features : U32
  ringEntries : U32
  ringMask : U32
  logEntries : Nat
  log_le : logEntries ≤ 16
  entries_eq : ringEntries = BitVec.ofNat 32 (2 ^ logEntries)
  mask_eq : ringMask = BitVec.ofNat 32 (2 ^ logEntries - 1)

/-- The CQ as the application and the kernel share it. -/
structure CqState where
  khead : U32
  ktail : U32
  cqes : U32 → IoUringCqe

/-- `io_uring_cqe_shift`: one for 32-byte CQEs. -/
def CqConf.cqeShift (c : CqConf) : Nat := if hasFlag c.flags IORING_SETUP_CQE32 then 1 else 0

/-- `io_uring_cqe_index(ring, ptr, mask)` with the ring's mask. -/
def ioUringCqeIndex (c : CqConf) (ptr : U32) : U32 := (ptr &&& c.ringMask) <<< c.cqeShift

/-- `io_uring_cq_ready`. -/
def ioUringCqReady (s : CqState) : U32 := s.ktail - s.khead

/-- `io_uring_cq_advance`. -/
def ioUringCqAdvance (s : CqState) (nr : U32) : CqState :=
  if nr ≠ 0 then { s with khead := s.khead + nr } else s

/-- `io_uring_cqe_seen`: `cqe` is the index the application got, or `NULL`. -/
def ioUringCqeSeen (s : CqState) (cqe : Option U32) : CqState :=
  if cqe.isSome then ioUringCqAdvance s 1 else s

/-- `cq_ring_needs_flush` (queue.c:42), on the SQ ring's flag word `*sq->kflags`. -/
def cqRingNeedsFlush (kflags : U32) : Bool :=
  hasFlag kflags (IORING_SQ_CQ_OVERFLOW ||| IORING_SQ_TASKRUN)

/-! ## `__io_uring_peek_cqe` -/

/-- The test of liburing.h:1356: an internal timeout's CQE, on a kernel without
IORING_FEAT_EXT_ARG, is consumed by the library. -/
def CqConf.skips (c : CqConf) (cqe : IoUringCqe) : Bool :=
  !hasFlag c.features IORING_FEAT_EXT_ARG && cqe.userData == LIBURING_UDATA_TIMEOUT

/-- What `__io_uring_peek_cqe` leaves: the ring, `*cqe_ptr` (an index into `cqes`, or `NULL`),
`*nr_available` and its return value. -/
structure Peeked where
  ring : CqState
  cqe : Option U32
  available : U32
  err : Int32

/-- The loop of `__io_uring_peek_cqe` with `fuel` iterations left; `none` if they run out. -/
def peekCqeLoop (c : CqConf) : Nat → CqState → Int32 → Option Peeked
  | 0, _, _ => none
  | fuel + 1, s, err =>
    let tail := s.ktail
    let head := s.khead
    let available := tail - head
    if available = 0 then some ⟨s, none, available, err⟩
    else
      let cqe := ioUringCqeIndex c head
      if c.skips (s.cqes cqe) then
        let err := if (s.cqes cqe).res < 0 then (s.cqes cqe).res else err
        let s := ioUringCqAdvance s 1
        if err = 0 then peekCqeLoop c fuel s err
        else some ⟨s, none, available, err⟩
      else some ⟨s, some cqe, available, err⟩

/-- `__io_uring_peek_cqe`. Every `continue` consumes one of the at most `2^32 - 1` available
CQEs, so `2^32` iterations are always enough (`peekCqe_eq`). -/
def __ioUringPeekCqe (c : CqConf) (s : CqState) : Option Peeked := peekCqeLoop c (2 ^ 32) s 0

/-! ## Batches and iteration -/

/-- `for (; head != last; head++) cqes[i++] = &ring->cq.cqes[(head & mask) << shift];`, for at
most `fuel` rounds. `io_uring_for_each_cqe` is the same loop with `last = *ktail`, its body
leaving after `fuel` CQEs (or never). -/
def walkCqes (c : CqConf) (last : U32) : Nat → U32 → List U32
  | 0, _ => []
  | fuel + 1, head => if head ≠ last then ioUringCqeIndex c head :: walkCqes c last fuel (head + 1) else []

/-- The CQEs `io_uring_for_each_cqe` visits when its body runs at most `limit` times. -/
def ioUringForEachCqe (c : CqConf) (s : CqState) (limit : Nat) : List U32 :=
  walkCqes c s.ktail limit s.khead

/-- One pass of `io_uring_peek_batch_cqe` from its label `again:`: the CQE indices and the count
it returns when a CQE is ready. -/
def peekBatchAttempt (c : CqConf) (s : CqState) (count : U32) : Option (List U32 × U32) :=
  let ready := ioUringCqReady s
  if ready ≠ 0 then
    let head := s.khead
    let count := if count > ready then ready else count
    let last := head + count
    some (walkCqes c last (2 ^ 32) head, count)
  else none

/-- `io_uring_peek_batch_cqe`: the ring after the call, the indices it stores in `cqes[]` and
the count it returns. `getEvents` is what the kernel does to the ring during
`io_uring_get_events`, entered once when nothing is ready and the kernel asks for a flush. -/
def ioUringPeekBatchCqe (c : CqConf) (getEvents : CqState → CqState) (kflags : U32) (s : CqState)
    (count : U32) : CqState × List U32 × U32 :=
  match peekBatchAttempt c s count with
  | some r => (s, r)
  | none =>
    if cqRingNeedsFlush kflags then
      -- `overflow_checked = true; goto again;`
      let s := getEvents s
      match peekBatchAttempt c s count with
      | some r => (s, r)
      | none => (s, [], 0)
    else (s, [], 0)

/-- The kernel posts one CQE: CQE number `t = ktail` goes to `cqes[(t & mask) << shift]`, then the
tail moves past it. -/
def cqPostOne (c : CqConf) (s : CqState) (v : IoUringCqe) : CqState :=
  { s with cqes := Function.update s.cqes (ioUringCqeIndex c s.ktail) v, ktail := s.ktail + 1 }

/-- The kernel posts `vs` in order. -/
def cqPost (c : CqConf) (s : CqState) : List IoUringCqe → CqState
  | [] => s
  | v :: vs => cqPost c (cqPostOne c s v) vs

/-! ## The queue -/

/-- The CQE index of an unbounded position (the counter is the position modulo `2^32`). -/
def CqConf.posSlot (c : CqConf) (p : Nat) : U32 := cellOf 32 c.logEntries c.cqeShift p

/-- The CQEs posted and not consumed, oldest first. -/
def cqQueue (c : CqConf) (s : CqState) : List IoUringCqe :=
  window (fun p => s.cqes (c.posSlot p)) s.khead.toNat (ioUringCqReady s).toNat

namespace CqConf

variable (c : CqConf)

theorem cqeShift_le : c.cqeShift ≤ 1 := by unfold cqeShift; split <;> omega

theorem log_add_shift_le : c.logEntries + c.cqeShift ≤ 32 := by
  have := c.log_le; have := c.cqeShift_le; omega

theorem two_pow_log_le : 2 ^ c.logEntries ≤ 2 ^ 16 := Nat.pow_le_pow_right (by decide) c.log_le

theorem toNat_ringEntries : c.ringEntries.toNat = 2 ^ c.logEntries := by
  rw [c.entries_eq]
  exact toNat_ofNat_two_pow (by have := c.log_le; omega)

theorem ioUringCqeIndex_eq (x : U32) : ioUringCqeIndex c x = c.posSlot x.toNat := by
  rw [ioUringCqeIndex, posSlot, cellOf_toNat, c.mask_eq]

theorem posSlot_ne {b i j : Nat} (hi : i < 2 ^ c.logEntries) (hj : j < 2 ^ c.logEntries) (hij : i ≠ j) :
    c.posSlot (b + i) ≠ c.posSlot (b + j) :=
  cellOf_ne c.log_add_shift_le hi hj hij

theorem posSlot_mod (p : Nat) : c.posSlot (p % 2 ^ 32) = c.posSlot p := cellOf_mod _ _ p

end CqConf

/-! ## Small lemmas -/

section
variable {c : CqConf} {s : CqState}

@[simp] theorem cqPost_nil (s : CqState) : cqPost c s [] = s := rfl

theorem ioUringCqAdvance_eq (s : CqState) (nr : U32) : ioUringCqAdvance s nr = { s with khead := s.khead + nr } := by
  unfold ioUringCqAdvance
  split
  · rfl
  · rename_i h
    rw [not_not.1 h]
    simp

@[simp] theorem ioUringCqAdvance_khead (s : CqState) (nr : U32) : (ioUringCqAdvance s nr).khead = s.khead + nr := by
  rw [ioUringCqAdvance_eq]

@[simp] theorem ioUringCqAdvance_ktail (s : CqState) (nr : U32) : (ioUringCqAdvance s nr).ktail = s.ktail := by
  rw [ioUringCqAdvance_eq]

@[simp] theorem ioUringCqAdvance_cqes (s : CqState) (nr : U32) : (ioUringCqAdvance s nr).cqes = s.cqes := by
  rw [ioUringCqAdvance_eq]

/-- `io_uring_cqe_seen` advances by one exactly when it is given a CQE. -/
theorem ioUringCqeSeen_eq (s : CqState) (cqe : Option U32) :
    ioUringCqeSeen s cqe = ioUringCqAdvance s (BitVec.ofNat 32 cqe.toList.length) := by
  cases cqe with
  | none => simp [ioUringCqeSeen, ioUringCqAdvance]
  | some i => rfl

theorem toNat_ready_lt (s : CqState) : (ioUringCqReady s).toNat < 2 ^ 32 := BitVec.isLt _

/-- Consuming `k` of the ready CQEs leaves `ready - k`. -/
theorem ready_advance {k : Nat} (hk : k ≤ (ioUringCqReady s).toNat) :
    (ioUringCqReady { s with khead := s.khead + BitVec.ofNat 32 k }).toNat = (ioUringCqReady s).toNat - k :=
  toNat_sub_add hk

/-- The queue read from a head advanced by `k` is the queue without its first `k` CQEs. -/
theorem cqQueue_advance {k : Nat} (hk : k ≤ (ioUringCqReady s).toNat) :
    cqQueue c { s with khead := s.khead + BitVec.ofNat 32 k } = (cqQueue c s).drop k := by
  have hper : ∀ p, s.cqes (c.posSlot (p % 2 ^ 32)) = s.cqes (c.posSlot p) := fun p => by
    rw [c.posSlot_mod]
  rw [cqQueue, cqQueue, ready_advance hk, drop_window _ _ hk]
  apply window_mod_eq hper
  rw [toNat_add_ofNat, Nat.mod_mod]

/-- A non-empty queue starts with the CQE at `khead`. -/
theorem cqQueue_cons (h : ioUringCqReady s ≠ 0) :
    cqQueue c s = s.cqes (ioUringCqeIndex c s.khead) :: cqQueue c { s with khead := s.khead + 1 } := by
  have h1 : 1 ≤ (ioUringCqReady s).toNat := by
    have : (ioUringCqReady s).toNat ≠ 0 := fun e => h (BitVec.eq_of_toNat_eq e)
    omega
  have hq := cqQueue_advance (c := c) h1
  rw [show BitVec.ofNat 32 1 = 1 from rfl] at hq
  rw [hq, c.ioUringCqeIndex_eq]
  obtain ⟨n, hn⟩ := Nat.exists_eq_add_of_le h1
  rw [cqQueue, hn, Nat.add_comm, window_succ, List.drop_one, List.tail_cons]

@[simp] theorem cqPostOne_khead (s : CqState) (v : IoUringCqe) : (cqPostOne c s v).khead = s.khead := rfl

/-- The kernel never moves the head. -/
@[simp] theorem cqPost_khead (vs : List IoUringCqe) : ∀ s : CqState, (cqPost c s vs).khead = s.khead := by
  induction vs with
  | nil => intro s; rfl
  | cons v vs ih => intro s; rw [cqPost, ih, cqPostOne_khead]

/-- One posting into a queue that is not full: the CQE lands in the slot just past the queue. -/
theorem cqPostOne_spec (v : IoUringCqe) (hfit : (ioUringCqReady s).toNat < 2 ^ c.logEntries) :
    (ioUringCqReady (cqPostOne c s v)).toNat = (ioUringCqReady s).toNat + 1 ∧
      cqQueue c (cqPostOne c s v) = cqQueue c s ++ [v] := by
  have hr : (s.ktail - s.khead).toNat + 1 < 2 ^ 32 := by
    have : (s.ktail - s.khead).toNat < 2 ^ c.logEntries := hfit
    have := c.two_pow_log_le
    omega
  have hnext : (ioUringCqReady (cqPostOne c s v)).toNat = (ioUringCqReady s).toNat + 1 := toNat_add_sub hr
  have hslot : ioUringCqeIndex c s.ktail = c.posSlot (s.khead.toNat + (ioUringCqReady s).toNat) := by
    rw [c.ioUringCqeIndex_eq, ioUringCqReady, CqConf.posSlot, CqConf.posSlot, cellOf_toNat_add_sub]
  refine ⟨hnext, ?_⟩
  rw [cqQueue, cqQueue, hnext, cqPostOne_khead, cqPostOne, hslot]
  exact window_push v (slot_ne_of_mod (fun p q => cellOf_eq_iff c.log_add_shift_le p q) hfit)

/-- Posting CQEs that fit behind the queue appends them to it. -/
theorem cqPost_spec (vs : List IoUringCqe) :
    ∀ s : CqState, (ioUringCqReady s).toNat + vs.length ≤ 2 ^ c.logEntries →
      (cqPost c s vs).khead = s.khead ∧
        (ioUringCqReady (cqPost c s vs)).toNat = (ioUringCqReady s).toNat + vs.length ∧
        cqQueue c (cqPost c s vs) = cqQueue c s ++ vs := by
  induction vs with
  | nil => intro s _; simp
  | cons v vs ih =>
    intro s hfit
    simp only [List.length_cons] at hfit
    obtain ⟨hr1, hq1⟩ := cqPostOne_spec (c := c) (s := s) v (by omega)
    obtain ⟨-, hr, hq⟩ := ih (cqPostOne c s v) (by omega)
    refine ⟨cqPost_khead _ s, ?_, ?_⟩
    · rw [cqPost, hr, hr1, List.length_cons]; omega
    · rw [cqPost, hq, hq1, List.append_assoc, List.singleton_append]

end

/-! ## What the peek loop does -/

/-- How the loop of `__io_uring_peek_cqe` ends. -/
inductive PeekEnd where
  /-- the ring ran empty -/
  | empty
  /-- an internal timeout completed with the error `res` -/
  | error (res : Int32)
  /-- a CQE for the application is at the head -/
  | found

/-- The peek loop read on the queue: how many CQEs it steps over with `continue`, and how it
ends. -/
def peekScan (c : CqConf) : List IoUringCqe → Nat × PeekEnd
  | [] => (0, .empty)
  | e :: q =>
    if c.skips e then
      if e.res < 0 then (0, .error e.res) else ((peekScan c q).1 + 1, (peekScan c q).2)
    else (0, .found)

/-- Where the loop stops after stepping over `r.1` CQEs and ending as `r.2`. -/
def peekResult (c : CqConf) (s : CqState) (r : Nat × PeekEnd) : Peeked :=
  let head := s.khead + BitVec.ofNat 32 r.1
  match r.2 with
  | .empty => ⟨{ s with khead := head }, none, s.ktail - head, 0⟩
  | .error res => ⟨{ s with khead := head + 1 }, none, s.ktail - head, res⟩
  | .found => ⟨{ s with khead := head }, some (ioUringCqeIndex c head), s.ktail - head, 0⟩

section
variable {c : CqConf}

theorem peekResult_succ (s : CqState) (m : Nat) (o : PeekEnd) :
    peekResult c { s with khead := s.khead + 1 } (m, o) = peekResult c s (m + 1, o) := by
  have e : s.khead + 1 + BitVec.ofNat 32 m = s.khead + BitVec.ofNat 32 (m + 1) := by
    rw [BitVec.ofNat_add, show BitVec.ofNat 32 1 = 1 from rfl]; ring
  cases o <;> simp only [peekResult, e]

theorem peekResult_zero_found (s : CqState) :
    peekResult c s (0, .found) = ⟨s, some (ioUringCqeIndex c s.khead), ioUringCqReady s, 0⟩ := by
  simp [peekResult, ioUringCqReady]

/-- The loop of `__io_uring_peek_cqe` does what `peekScan` reads off the queue, given one
iteration more than there are CQEs. The induction is on the fuel; each `continue` consumes
the head CQE, and the queue of the advanced ring is the tail of the queue. -/
theorem peekCqeLoop_eq : ∀ (fuel : Nat) (s : CqState), (ioUringCqReady s).toNat < fuel →
    peekCqeLoop c fuel s 0 = some (peekResult c s (peekScan c (cqQueue c s)))
  | 0, _, h => absurd h (Nat.not_lt_zero _)
  | fuel + 1, s, h => by
    by_cases h0 : ioUringCqReady s = 0
    · -- the ring is empty: `if (!available) break;`
      have hq : cqQueue c s = [] := by simp [cqQueue, h0]
      have h0' : s.ktail - s.khead = 0 := h0
      simp [peekCqeLoop, hq, peekScan, peekResult, h0']
    · have h0' : ¬ s.ktail - s.khead = 0 := h0
      rw [cqQueue_cons h0]
      by_cases hskip : c.skips (s.cqes (ioUringCqeIndex c s.khead))
      · by_cases hneg : (s.cqes (ioUringCqeIndex c s.khead)).res < 0
        · -- a failed internal timeout: its error is returned with no CQE
          have hne : (s.cqes (ioUringCqeIndex c s.khead)).res ≠ 0 := fun e => by
            rw [e] at hneg; exact absurd hneg (by decide)
          simp only [peekCqeLoop]
          rw [if_neg h0', if_pos hskip, if_pos hneg, if_neg hne, peekScan, if_pos hskip, if_pos hneg]
          simp [peekResult, ioUringCqAdvance_eq]
        · -- a successful internal timeout: consumed, and the loop goes on
          have hpos : 1 ≤ (ioUringCqReady s).toNat :=
            Nat.one_le_iff_ne_zero.2 fun e => h0 (BitVec.eq_of_toNat_eq e)
          have h1 : (ioUringCqReady { s with khead := s.khead + 1 }).toNat < fuel := by
            rw [show s.khead + 1 = s.khead + BitVec.ofNat 32 1 from rfl, ready_advance hpos]
            omega
          simp only [peekCqeLoop]
          rw [if_neg h0', if_pos hskip, if_neg hneg, if_pos rfl, ioUringCqAdvance_eq, peekCqeLoop_eq fuel _ h1,
            peekScan, if_pos hskip, if_neg hneg, peekResult_succ]
      · -- a CQE for the application
        simp only [peekCqeLoop, h0', hskip, if_false, peekScan, Bool.false_eq_true]
        rw [peekResult_zero_found]
        rfl

/-- `__io_uring_peek_cqe` always returns, with what `peekScan` reads off the queue. -/
theorem peekCqe_eq (s : CqState) :
    __ioUringPeekCqe c s = some (peekResult c s (peekScan c (cqQueue c s))) :=
  peekCqeLoop_eq _ s (toNat_ready_lt s)

theorem peekScan_le (q : List IoUringCqe) : (peekScan c q).1 ≤ q.length := by
  induction q with
  | nil => simp [peekScan]
  | cons e q ih =>
    simp only [peekScan, List.length_cons]
    split
    · split
      · exact Nat.zero_le _
      · exact Nat.succ_le_succ ih
    · exact Nat.zero_le _

/-- The loop runs out of CQEs only after stepping over all of them. -/
theorem peekScan_empty {q : List IoUringCqe} (h : (peekScan c q).2 = .empty) : (peekScan c q).1 = q.length := by
  induction q with
  | nil => rfl
  | cons e q ih =>
    simp only [peekScan] at h ⊢
    split at h
    · split at h
      · cases h
      · rename_i hs hn
        rw [if_pos hs, if_neg hn, List.length_cons, ih h]
    · cases h

/-- The loop stops at a CQE of the queue when it does not run out. -/
theorem peekScan_lt {q : List IoUringCqe} (h : (peekScan c q).2 ≠ .empty) : (peekScan c q).1 < q.length := by
  induction q with
  | nil => exact absurd rfl h
  | cons e q ih =>
    simp only [peekScan] at h ⊢
    split
    · split
      · simp
      · rename_i hs hn
        rw [if_pos hs, if_neg hn] at h
        exact Nat.succ_lt_succ (ih h)
    · simp

/-- An error the loop returns is the negative result of an internal timeout. -/
theorem peekScan_error {q : List IoUringCqe} {res : Int32} (h : (peekScan c q).2 = .error res) : res < 0 := by
  induction q with
  | nil => cases h
  | cons e q ih =>
    simp only [peekScan] at h
    split at h
    · split at h
      · rename_i hn
        cases h
        exact hn
      · exact ih h
    · cases h

/-- Everything `__io_uring_peek_cqe` can do: it only moves the head, and it finds the ring
empty, or returns a negative error without a CQE, or returns the CQE at the head it stops at. -/
theorem peekCqe_cases (s : CqState) : ∃ pk, __ioUringPeekCqe c s = some pk ∧
    pk.ring.ktail = s.ktail ∧ pk.ring.cqes = s.cqes ∧
    ((pk.cqe = none ∧ pk.available = 0 ∧ pk.err = 0) ∨ (pk.cqe = none ∧ pk.err < 0) ∨
      (pk.cqe = some (ioUringCqeIndex c pk.ring.khead) ∧ pk.available = ioUringCqReady pk.ring ∧
        ioUringCqReady pk.ring ≠ 0 ∧ pk.err = 0)) := by
  refine ⟨_, peekCqe_eq s, ?_⟩
  have hle := peekScan_le (c := c) (cqQueue c s)
  have hlen : (cqQueue c s).length = (s.ktail - s.khead).toNat := length_window _ _ _
  -- the ready count left once the loop has stepped over `m` CQEs
  have hrest : (s.ktail - (s.khead + BitVec.ofNat 32 (peekScan c (cqQueue c s)).1)).toNat =
      (s.ktail - s.khead).toNat - (peekScan c (cqQueue c s)).1 := toNat_sub_add (by omega)
  generalize hr : peekScan c (cqQueue c s) = r at hle hrest
  obtain ⟨m, o⟩ := r
  cases o with
  | empty =>
    have hm : m = (s.ktail - s.khead).toNat := by
      rw [← hlen, ← peekScan_empty (c := c) (by rw [hr])]; rw [hr]
    refine ⟨rfl, rfl, .inl ⟨rfl, BitVec.eq_of_toNat_eq ?_, rfl⟩⟩
    simp only [peekResult] at hrest ⊢
    rw [hrest, hm, Nat.sub_self]; rfl
  | error res => exact ⟨rfl, rfl, .inr (.inl ⟨rfl, peekScan_error (c := c) (q := cqQueue c s) (by rw [hr]; rfl)⟩)⟩
  | found =>
    have hm : m < (s.ktail - s.khead).toNat := by
      rw [← hlen]
      have := peekScan_lt (c := c) (q := cqQueue c s) (by rw [hr]; simp)
      rwa [hr] at this
    refine ⟨rfl, rfl, .inr (.inr ⟨rfl, rfl, fun e => ?_, rfl⟩)⟩
    have h0 := congrArg BitVec.toNat e
    simp only [peekResult, ioUringCqReady] at h0 hrest
    have : (0 : U32).toNat = 0 := rfl
    omega

/-- With IORING_FEAT_EXT_ARG nothing is skipped: `__io_uring_peek_cqe` returns the head CQE, or
`NULL` on an empty ring, and consumes nothing. -/
theorem peekCqe_of_extArg (hext : hasFlag c.features IORING_FEAT_EXT_ARG = true) (s : CqState) :
    __ioUringPeekCqe c s =
      some ⟨s, if ioUringCqReady s = 0 then none else some (ioUringCqeIndex c s.khead), ioUringCqReady s, 0⟩ := by
  have hskip : ∀ e, c.skips e = false := fun e => by simp [CqConf.skips, hext]
  rw [peekCqe_eq]
  by_cases h0 : ioUringCqReady s = 0
  · have hq : cqQueue c s = [] := by simp [cqQueue, h0]
    rw [hq, if_pos h0]
    simp [peekScan, peekResult, ioUringCqReady]
  · rw [cqQueue_cons h0, peekScan, if_neg (by simp [hskip]), if_neg h0, peekResult_zero_found]

/-! ## What the batch and iteration loops hand out -/

/-- The walk from `b` towards `b + k` hands out the indices of positions `b, b+1, …`, as many as
the fuel allows and `k` at most. The induction follows the loop: the counter `head` moves one
step and the distance to `last` shrinks by one. -/
theorem walkCqes_eq : ∀ (fuel : Nat) (b : U32) (k : Nat), k < 2 ^ 32 →
    walkCqes c (b + BitVec.ofNat 32 k) fuel b = window c.posSlot b.toNat (min fuel k)
  | 0, _, _, _ => by simp [walkCqes]
  | fuel + 1, b, 0, _ => by simp [walkCqes]
  | fuel + 1, b, k + 1, hk => by
    have hne : b ≠ b + BitVec.ofNat 32 (k + 1) := by
      intro e
      have h := toNat_self_add_sub b hk
      rw [← e, BitVec.sub_self] at h
      simp at h
    have hlast : b + BitVec.ofNat 32 (k + 1) = b + 1 + BitVec.ofNat 32 k := by
      rw [BitVec.ofNat_add, show BitVec.ofNat 32 1 = 1 from rfl]; ring
    have hnext : (b + 1).toNat % 2 ^ 32 = (b.toNat + 1) % 2 ^ 32 := by
      rw [show b + 1 = b + BitVec.ofNat 32 1 from rfl, toNat_add_ofNat, Nat.mod_mod]
    rw [walkCqes, if_pos hne, hlast, walkCqes_eq fuel (b + 1) k (by omega), Nat.succ_min_succ, window_succ,
      c.ioUringCqeIndex_eq, window_mod_eq (fun p => c.posSlot_mod p) hnext]

/-- `io_uring_for_each_cqe` visits the oldest CQEs, as many as its body asks for and are ready. -/
theorem forEachCqe_eq (s : CqState) (limit : Nat) :
    ioUringForEachCqe c s limit = window c.posSlot s.khead.toNat (min limit (ioUringCqReady s).toNat) := by
  have e : s.ktail = s.khead + BitVec.ofNat 32 (ioUringCqReady s).toNat := by
    rw [BitVec.ofNat_toNat, BitVec.setWidth_eq, ioUringCqReady]; ring
  rw [ioUringForEachCqe, e, walkCqes_eq limit _ _ (toNat_ready_lt s)]

theorem toNat_min_count (count ready : U32) :
    (if count > ready then ready else count).toNat = min count.toNat ready.toNat := by
  split
  · rename_i h; rw [gt_iff_lt, BitVec.lt_def] at h; omega
  · rename_i h; rw [gt_iff_lt, BitVec.lt_def] at h; omega

/-- One pass of the batch peek, read on the queue. -/
theorem peekBatchAttempt_eq (s : CqState) (count : U32) :
    peekBatchAttempt c s count =
      if ioUringCqReady s ≠ 0 then
        some (window c.posSlot s.khead.toNat (min count.toNat (ioUringCqReady s).toNat),
          BitVec.ofNat 32 (min count.toNat (ioUringCqReady s).toNat))
      else none := by
  unfold peekBatchAttempt
  by_cases h : ioUringCqReady s = 0
  · simp [h]
  · have hlt : min count.toNat (ioUringCqReady s).toNat < 2 ^ 32 :=
      Nat.lt_of_le_of_lt (Nat.min_le_left _ _) count.isLt
    have e : (if count > ioUringCqReady s then ioUringCqReady s else count) =
        BitVec.ofNat 32 (min count.toNat (ioUringCqReady s).toNat) := by
      rw [← toNat_min_count, BitVec.ofNat_toNat, BitVec.setWidth_eq]
    simp only [ne_eq, h, not_false_eq_true, if_true, e, walkCqes_eq _ _ _ hlt, Nat.min_eq_right hlt.le]

/-- What one pass from `again:` returns, completed by the `return 0` that follows a failed pass. -/
theorem batchPass_eq (t : CqState) (count : U32) :
    (match peekBatchAttempt c t count with
      | some r => (t, r)
      | none => (t, [], 0)) =
    (t, window c.posSlot t.khead.toNat (min count.toNat (ioUringCqReady t).toNat),
      BitVec.ofNat 32 (min count.toNat (ioUringCqReady t).toNat)) := by
  rw [peekBatchAttempt_eq]
  by_cases h : ioUringCqReady t = 0
  · rw [if_neg (not_not.2 h), h]
    simp
  · rw [if_pos h]

/-- `io_uring_peek_batch_cqe` hands out the oldest `min count ready` CQEs of the ring it ends
with, and returns their number. That ring is the one it was given, or, when nothing was ready
and the kernel asked for a flush, that ring after `io_uring_get_events`. -/
theorem peekBatch_eq (getEvents : CqState → CqState) (kflags : U32) (s : CqState) (count : U32) :
    ioUringPeekBatchCqe c getEvents kflags s count =
      let t := if ioUringCqReady s = 0 ∧ cqRingNeedsFlush kflags then getEvents s else s
      (t, window c.posSlot t.khead.toNat (min count.toNat (ioUringCqReady t).toNat),
        BitVec.ofNat 32 (min count.toNat (ioUringCqReady t).toNat)) := by
  unfold ioUringPeekBatchCqe
  by_cases h0 : ioUringCqReady s = 0
  · have hnone : peekBatchAttempt c s count = none := by rw [peekBatchAttempt_eq, if_neg (not_not.2 h0)]
    rw [hnone]
    by_cases hf : cqRingNeedsFlush kflags
    · simp only [hf, if_true, h0, and_self]
      exact batchPass_eq _ count
    · simp only [hf, Bool.false_eq_true, if_false, and_false]
      rw [← batchPass_eq s count, hnone]
  · simp only [h0, false_and, if_false]
    rw [← batchPass_eq s count, peekBatchAttempt_eq, if_pos h0]

/-- `io_uring_peek_batch_cqe` returns the first `count` CQEs of the queue of the ring it ends
with, and their number. -/
theorem peekBatch_oldest (getEvents : CqState → CqState) (kflags : U32) (s : CqState) (count : U32) :
    let r := ioUringPeekBatchCqe c getEvents kflags s count
    r.2.2.toNat = min count.toNat (ioUringCqReady r.1).toNat ∧
      r.2.1.map r.1.cqes = (cqQueue c r.1).take count.toNat := by
  refine ⟨?_, ?_⟩
  · rw [peekBatch_eq]
    exact Nat.mod_eq_of_lt (Nat.lt_of_le_of_lt (Nat.min_le_left _ _) count.isLt)
  · rw [peekBatch_eq]
    simp only [map_window, cqQueue, take_window_min]

end

end Liburing
