import Liburing.Cq
import Liburing.Ring.Run
/-!
# CQ consumption is a lossless in-order FIFO (IORING_FEAT_EXT_ARG)

A run interleaves the kernel's moves (posting CQEs within the ring's capacity, setting the SQ
ring's flag word) with the application's: `__io_uring_peek_cqe`, then `io_uring_cqe_seen`;
`io_uring_peek_batch_cqe` or `io_uring_for_each_cqe`, then `io_uring_cq_advance`. The
application reads a CQE when it releases it. What `io_uring_peek_cqe`, `io_uring_wait_cqe` and
`io_uring_wait_cqes` do to the CQ is a run of `peekCqe` and the kernel's moves (`RunsCq`,
`Enter.lean`).

| here | there |
| --- | --- |
| `CqSys`   | the CQ, `*sq->kflags`, and the CQEs the application holds |
| `CqOp`    | the kernel's moves and the consumption calls of liburing.h:286-324, :1331, queue.c:162 |
| `cqView`  | the ring as a FIFO of posted CQEs (`Ring/Fifo.lean`) |

On a ring with IORING_FEAT_EXT_ARG the peek never skips a CQE, so every CQE posted is
delivered exactly once, in posting order, over every legal run (`cq_ring_lossless_fifo`).
-/
namespace Liburing

open SlotRing

/-- The CQ in a run: `got` are the CQE indices of the application's last retrieval that it has
not released yet; `kflags` is the SQ ring's flag word. -/
structure CqSys where
  ring : CqState
  kflags : U32
  got : List U32

/-- What happens to the CQ. -/
inductive CqOp where
  /-- The kernel posts CQEs. -/
  | post (vs : List IoUringCqe)
  /-- The kernel sets `*sq->kflags`. -/
  | setKflags (f : U32)
  /-- `__io_uring_peek_cqe`. -/
  | peekCqe
  /-- `io_uring_cqe_seen` on the CQE the application got. -/
  | cqeSeen
  /-- `io_uring_peek_batch_cqe(count)`; the kernel flushes `flushed` if `io_uring_get_events` is
  entered. -/
  | peekBatchCqe (count : U32) (flushed : List IoUringCqe)
  /-- `io_uring_for_each_cqe` with a body that leaves after `limit` CQEs. -/
  | forEachCqe (limit : Nat)
  /-- `io_uring_cq_advance`. -/
  | cqAdvance (nr : U32)

/-- The kernel never overfills the ring; the application advances over no more CQEs than it
got. -/
def cqLegal (c : CqConf) (s : CqSys) : CqOp → Prop
  | .post vs => (ioUringCqReady s.ring).toNat + vs.length ≤ 2 ^ c.logEntries
  | .peekBatchCqe _ vs => (ioUringCqReady s.ring).toNat + vs.length ≤ 2 ^ c.logEntries
  | .cqAdvance nr => nr.toNat ≤ s.got.length
  | _ => True

instance cqLegal.decidable (c : CqConf) (s : CqSys) : (op : CqOp) → Decidable (cqLegal c s op)
  | .post vs => inferInstanceAs (Decidable ((ioUringCqReady s.ring).toNat + vs.length ≤ 2 ^ c.logEntries))
  | .setKflags _ => inferInstanceAs (Decidable True)
  | .peekCqe => inferInstanceAs (Decidable True)
  | .cqeSeen => inferInstanceAs (Decidable True)
  | .peekBatchCqe _ vs => inferInstanceAs (Decidable ((ioUringCqReady s.ring).toNat + vs.length ≤ 2 ^ c.logEntries))
  | .forEachCqe _ => inferInstanceAs (Decidable True)
  | .cqAdvance nr => inferInstanceAs (Decidable (nr.toNat ≤ s.got.length))

def cqStep (c : CqConf) (s : CqSys) : CqOp → CqSys
  | .post vs => { s with ring := cqPost c s.ring vs }
  | .setKflags f => { s with kflags := f }
  | .peekCqe =>
    match __ioUringPeekCqe c s.ring with
    | some r => { s with ring := r.ring, got := r.cqe.toList }
    | none => s
  | .cqeSeen => { s with ring := ioUringCqeSeen s.ring s.got.head?, got := [] }
  | .peekBatchCqe count vs =>
    let r := ioUringPeekBatchCqe c (fun t => cqPost c t vs) s.kflags s.ring count
    { s with ring := r.1, got := r.2.1 }
  | .forEachCqe limit => { s with got := ioUringForEachCqe c s.ring limit }
  | .cqAdvance nr => { s with ring := ioUringCqAdvance s.ring nr, got := [] }

/-- The CQEs a step delivers: those the application releases, read through its indices. -/
def cqDelivered (s : CqSys) : CqOp → List IoUringCqe
  | .cqeSeen => (s.got.take 1).map s.ring.cqes
  | .cqAdvance nr => (s.got.take nr.toNat).map s.ring.cqes
  | _ => []

/-- The CQEs a step posts. -/
def cqPosted (s : CqSys) : CqOp → List IoUringCqe
  | .post vs => vs
  | .peekBatchCqe _ vs => if ioUringCqReady s.ring = 0 ∧ cqRingNeedsFlush s.kflags then vs else []
  | _ => []

/-- The abstract actions of a step: a posting stages and publishes its CQEs at once, a release
takes from the front. -/
def cqLabel (s : CqSys) : CqOp → List (Act IoUringCqe)
  | .post vs => vs.map .stage ++ [.publish]
  | .peekBatchCqe _ vs =>
    if ioUringCqReady s.ring = 0 ∧ cqRingNeedsFlush s.kflags then vs.map .stage ++ [.publish] else []
  | .cqeSeen => [.take (s.got.take 1).length]
  | .cqAdvance nr => [.take nr.toNat]
  | _ => []

/-- The ring as a FIFO of posted CQEs; nothing is held back by the producer. -/
def cqView (c : CqConf) (s : CqSys) : Staged IoUringCqe := ⟨cqQueue c s.ring, []⟩

/-- What holds along every run: the kernel's tail is at most `ring_entries` ahead of the head
(so the head never passes the tail), and the CQEs the application holds are the oldest ones. -/
structure CqInv (c : CqConf) (s : CqSys) : Prop where
  ready_le : (ioUringCqReady s.ring).toNat ≤ 2 ^ c.logEntries
  got_le : s.got.length ≤ (ioUringCqReady s.ring).toNat
  got_eq : s.got = window c.posSlot s.ring.khead.toNat s.got.length

section
variable {c : CqConf} {s : CqSys}

/-- The first CQEs the application holds are the first CQEs of the queue. -/
theorem CqInv.got_take (h : CqInv c s) (k : Nat) :
    (s.got.take k).map s.ring.cqes = (cqQueue c s.ring).take (s.got.take k).length := by
  have hle : min k s.got.length ≤ (ioUringCqReady s.ring).toNat := (Nat.min_le_right _ _).trans h.got_le
  rw [h.got_eq, take_window_min, map_window, length_window, cqQueue, take_window_min, Nat.min_eq_left hle]

theorem got_head?_toList (l : List U32) : l.head?.toList = l.take 1 := by
  cases l <;> rfl

/-- Releasing `k ≤ ready` CQEs moves the head by `k`. -/
theorem advance_ofNat (ring : CqState) (k : Nat) :
    ioUringCqAdvance ring (BitVec.ofNat 32 k) = { ring with khead := ring.khead + BitVec.ofNat 32 k } :=
  ioUringCqAdvance_eq ring _

theorem cqeSeen_got (ring : CqState) (got : List U32) :
    ioUringCqeSeen ring got.head? = { ring with khead := ring.khead + BitVec.ofNat 32 (got.take 1).length } := by
  rw [ioUringCqeSeen_eq, got_head?_toList, advance_ofNat]

theorem cqAdvance_toNat (ring : CqState) (nr : U32) :
    ioUringCqAdvance ring nr = { ring with khead := ring.khead + BitVec.ofNat 32 nr.toNat } := by
  rw [ioUringCqAdvance_eq, BitVec.ofNat_toNat, BitVec.setWidth_eq]

/-- The ring `io_uring_peek_batch_cqe` ends with, in a run. -/
theorem peekBatch_ring (count : U32) (vs : List IoUringCqe) :
    (ioUringPeekBatchCqe c (fun t => cqPost c t vs) s.kflags s.ring count).1 =
      if ioUringCqReady s.ring = 0 ∧ cqRingNeedsFlush s.kflags then cqPost c s.ring vs else s.ring := by
  rw [peekBatch_eq]

/-! ## One step at a time -/

section
variable (hext : hasFlag c.features IORING_FEAT_EXT_ARG = true)
include hext

theorem cqStep_peekCqe :
    cqStep c s .peekCqe =
      { s with got := if ioUringCqReady s.ring = 0 then [] else [ioUringCqeIndex c s.ring.khead] } := by
  simp only [cqStep, peekCqe_of_extArg hext]
  split <;> rfl

theorem cqStep_inv (h : CqInv c s) (op : CqOp) (hl : cqLegal c s op) : CqInv c (cqStep c s op) := by
  have hr := h.ready_le
  have hg := h.got_le
  cases op with
  | post vs =>
    obtain ⟨hh, hready, -⟩ := cqPost_spec vs s.ring hl
    refine ⟨?_, ?_, ?_⟩ <;> simp only [cqStep, hh, hready]
    · exact hl
    · omega
    · exact h.got_eq
  | setKflags f => exact ⟨hr, hg, h.got_eq⟩
  | peekCqe =>
    rw [cqStep_peekCqe hext]
    refine ⟨hr, ?_, ?_⟩ <;> dsimp only <;> split
    · simp
    · rename_i h0
      have : (ioUringCqReady s.ring).toNat ≠ 0 := fun e => h0 (BitVec.eq_of_toNat_eq e)
      simp only [List.length_singleton]; omega
    · rfl
    · rw [List.length_singleton, window_succ, window_zero, c.ioUringCqeIndex_eq]
  | cqeSeen =>
    have hk : (s.got.take 1).length ≤ (ioUringCqReady s.ring).toNat := by
      rw [List.length_take]; omega
    refine ⟨?_, ?_, rfl⟩ <;> simp only [cqStep, cqeSeen_got, ready_advance hk]
    · omega
    · simp
  | peekBatchCqe count vs =>
    simp only [cqLegal] at hl
    have hring := peekBatch_ring (c := c) (s := s) count vs
    have hready : (ioUringCqReady (ioUringPeekBatchCqe c (fun t => cqPost c t vs) s.kflags s.ring count).1).toNat
        ≤ 2 ^ c.logEntries := by
      rw [hring]
      split
      · rw [(cqPost_spec vs s.ring hl).2.1]; exact hl
      · exact hr
    refine ⟨hready, ?_, ?_⟩ <;> simp only [cqStep, peekBatch_eq, length_window]
    · exact Nat.min_le_right _ _
  | forEachCqe limit =>
    refine ⟨hr, ?_, ?_⟩ <;> simp only [cqStep, forEachCqe_eq, length_window]
    exact Nat.min_le_right _ _
  | cqAdvance nr =>
    simp only [cqLegal] at hl
    refine ⟨?_, ?_, rfl⟩ <;> simp only [cqStep, cqAdvance_toNat, ready_advance (hl.trans hg)]
    · omega
    · simp

/-- Each step moves the FIFO view by its abstract actions. -/
theorem cqStep_view (h : CqInv c s) (op : CqOp) (hl : cqLegal c s op) :
    cqView c (cqStep c s op) = (cqView c s).run (cqLabel s op) := by
  cases op with
  | post vs =>
    rw [cqView, cqView, cqStep, cqLabel, Staged.run_stage_publish, (cqPost_spec vs s.ring hl).2.2, List.append_nil]
  | setKflags f => rfl
  | peekCqe => rw [cqStep_peekCqe hext]; rfl
  | cqeSeen =>
    have hk : (s.got.take 1).length ≤ (ioUringCqReady s.ring).toNat := by
      have := h.got_le; rw [List.length_take]; omega
    simp only [cqView, cqStep, cqLabel, cqeSeen_got, cqQueue_advance hk, Staged.run_cons, Staged.run_nil,
      Staged.act_take]
  | peekBatchCqe count vs =>
    simp only [cqLegal] at hl
    simp only [cqView, cqStep, peekBatch_ring, cqLabel]
    split
    · rw [Staged.run_stage_publish, (cqPost_spec vs s.ring hl).2.2, List.append_nil]
    · rfl
  | forEachCqe limit => rfl
  | cqAdvance nr =>
    simp only [cqLegal] at hl
    simp only [cqView, cqStep, cqLabel, cqAdvance_toNat, cqQueue_advance (hl.trans h.got_le), Staged.run_cons,
      Staged.run_nil, Staged.act_take]

end

/-- The application reads exactly what the abstract actions take. -/
theorem cqStep_delivered (h : CqInv c s) (op : CqOp) (hl : cqLegal c s op) :
    cqDelivered s op = (cqView c s).takenBy (cqLabel s op) := by
  cases op with
  | post vs => rw [cqLabel, Staged.takenBy_stage_publish]; rfl
  | peekBatchCqe count vs =>
    simp only [cqDelivered, cqLabel]
    split
    · rw [Staged.takenBy_stage_publish]
    · rfl
  | cqeSeen =>
    simp only [cqDelivered, cqLabel, Staged.takenBy_cons, Staged.takenBy_nil, Staged.taken_take, List.append_nil,
      h.got_take 1]
    rfl
  | cqAdvance nr =>
    simp only [cqLegal] at hl
    simp only [cqDelivered, cqLabel, Staged.takenBy_cons, Staged.takenBy_nil, Staged.taken_take, List.append_nil,
      h.got_take, List.length_take, Nat.min_eq_left hl]
    rfl
  | setKflags f => rfl
  | peekCqe => rfl
  | forEachCqe limit => rfl

/-- The kernel publishes exactly what it posts. -/
theorem cqStep_posted (op : CqOp) : cqPosted s op = (cqView c s).publishedBy (cqLabel s op) := by
  cases op with
  | post vs => rw [cqLabel, Staged.publishedBy_stage_publish]; rfl
  | peekBatchCqe count vs =>
    simp only [cqPosted, cqLabel]
    split
    · rw [Staged.publishedBy_stage_publish]; rfl
    · rfl
  | cqeSeen => rfl
  | cqAdvance nr => rfl
  | setKflags f => rfl
  | peekCqe => rfl
  | forEachCqe limit => rfl

end

/-! ## Over whole runs -/

/-- What the peeks see in any state: `__io_uring_peek_cqe` returns the oldest CQE without
consuming it, and `io_uring_peek_batch_cqe` returns `min(count, io_uring_cq_ready)` of the
oldest CQEs of the ring it ends with, whose queue extends the one it started from;
`io_uring_for_each_cqe` visits the ready CQEs from the head, at most `limit` of them, oldest
first. None needs the invariant. -/
theorem peeks_oldest (hext : hasFlag c.features IORING_FEAT_EXT_ARG = true) (t : CqSys) :
    (__ioUringPeekCqe c t.ring).map (fun r => (r.ring, r.cqe.map t.ring.cqes)) =
        some (t.ring, (cqQueue c t.ring).head?) ∧
      (∀ count vs, (ioUringCqReady t.ring).toNat + vs.length ≤ 2 ^ c.logEntries →
        let r := ioUringPeekBatchCqe c (fun u => cqPost c u vs) t.kflags t.ring count
        r.2.2.toNat = min count.toNat (ioUringCqReady r.1).toNat ∧
          r.2.1.map r.1.cqes = (cqQueue c r.1).take count.toNat ∧
          cqQueue c t.ring <+: cqQueue c r.1) ∧
      ∀ limit, ioUringForEachCqe c t.ring limit =
          window c.posSlot t.ring.khead.toNat (min limit (ioUringCqReady t.ring).toNat) ∧
        (ioUringForEachCqe c t.ring limit).map t.ring.cqes = (cqQueue c t.ring).take limit := by
  refine ⟨?_, fun count vs hfit => ?_, fun limit => ⟨forEachCqe_eq t.ring limit, ?_⟩⟩
  · rw [peekCqe_of_extArg hext]
    by_cases h0 : ioUringCqReady t.ring = 0
    · simp [h0, cqQueue]
    · rw [if_neg h0, cqQueue_cons h0]
      rfl
  · have hring := peekBatch_ring (c := c) (s := t) count vs
    obtain ⟨hcount, holdest⟩ := peekBatch_oldest (c := c) (fun u => cqPost c u vs) t.kflags t.ring count
    refine ⟨hcount, holdest, ?_⟩
    rw [hring]
    split
    · rw [(cqPost_spec vs t.ring hfit).2.2]
      exact List.prefix_append _ _
    · exact List.prefix_refl _
  · -- the loop reads the window of ready CQEs from the head, as the queue does
    rw [forEachCqe_eq, map_window, cqQueue, take_window_min]

/-- **CQ consumption is a lossless in-order FIFO.** On a ring with IORING_FEAT_EXT_ARG, over
every legal run of kernel postings and of the consumption paths (`__io_uring_peek_cqe` then
`io_uring_cqe_seen`; `io_uring_peek_batch_cqe` or `io_uring_for_each_cqe` then
`io_uring_cq_advance`), from any state satisfying `CqInv`, counters wrapping freely: at every
step the head stays within `ring_entries` behind the tail, the peeks see the oldest CQEs and
`io_uring_for_each_cqe` visits the ready CQEs from the head, oldest first (`peeks_oldest`); the
application reads exactly what the FIFO view takes, and what was queued
followed by everything posted is everything delivered followed by what is still queued. -/
theorem cq_ring_lossless_fifo (c : CqConf) (hext : hasFlag c.features IORING_FEAT_EXT_ARG = true)
    (s : CqSys) (hs : CqInv c s) (ops : List CqOp) (hl : Legal (cqStep c) (cqLegal c) s ops) :
    (∀ n, let t := run (cqStep c) s (ops.take n)
      CqInv c t ∧
        (__ioUringPeekCqe c t.ring).map (fun r => (r.ring, r.cqe.map t.ring.cqes)) =
          some (t.ring, (cqQueue c t.ring).head?) ∧
        (∀ count vs, (ioUringCqReady t.ring).toNat + vs.length ≤ 2 ^ c.logEntries →
          let r := ioUringPeekBatchCqe c (fun u => cqPost c u vs) t.kflags t.ring count
          r.2.2.toNat = min count.toNat (ioUringCqReady r.1).toNat ∧
            r.2.1.map r.1.cqes = (cqQueue c r.1).take count.toNat ∧
            cqQueue c t.ring <+: cqQueue c r.1) ∧
        ∀ limit, ioUringForEachCqe c t.ring limit =
            window c.posSlot t.ring.khead.toNat (min limit (ioUringCqReady t.ring).toNat) ∧
          (ioUringForEachCqe c t.ring limit).map t.ring.cqes = (cqQueue c t.ring).take limit) ∧
    trace (cqStep c) cqDelivered s ops = (cqView c s).takenBy (trace (cqStep c) cqLabel s ops) ∧
    cqQueue c s.ring ++ trace (cqStep c) cqPosted s ops =
      trace (cqStep c) cqDelivered s ops ++ cqQueue c (run (cqStep c) s ops).ring := by
  have hinv : ∀ t op, CqInv c t → cqLegal c t op → CqInv c (cqStep c t op) :=
    fun _ op h hl => cqStep_inv hext h op hl
  have hview : ∀ t op, CqInv c t → cqLegal c t op → cqView c (cqStep c t op) = (cqView c t).run (cqLabel t op) :=
    fun _ op h hl => cqStep_view hext h op hl
  refine ⟨fun n => ?_, ?_, ?_⟩
  · have ht := run_invariant_prefix (CqInv c) hinv s ops hs hl n
    exact ⟨ht, peeks_oldest hext _⟩
  · exact (refines (CqInv c) (cqView c) cqLabel cqDelivered hinv hview
      (fun _ op h hl => cqStep_delivered h op hl) s ops hs hl).2.1
  · exact refines_io (CqInv c) (cqView c) cqLabel cqPosted cqDelivered hinv hview
      (fun _ op _ _ => cqStep_posted op) (fun _ op h hl => cqStep_delivered h op hl) s ops hs hl

/-- A two-entry CQ with IORING_FEAT_EXT_ARG: the kernel posts two CQEs; one is peeked and seen,
the other taken by a batch peek and an advance. -/
def cqConfTwo : CqConf := ⟨0, IORING_FEAT_EXT_ARG, 2, 1, 1, by decide, by decide, by decide⟩

/-- The empty ring after setup, every CQE slot zero. -/
def cqSysEmpty : CqSys := ⟨⟨0, 0, fun _ => ⟨0, 0, 0⟩⟩, 0, []⟩

theorem cqSysEmpty_inv : CqInv cqConfTwo cqSysEmpty := ⟨by decide, by decide, rfl⟩

theorem cq_ring_lossless_fifo_two :
    hasFlag cqConfTwo.features IORING_FEAT_EXT_ARG = true ∧ CqInv cqConfTwo cqSysEmpty ∧
      Legal (cqStep cqConfTwo) (cqLegal cqConfTwo) cqSysEmpty
        [.post [⟨1, 0, 0⟩, ⟨2, 0, 0⟩], .peekCqe, .cqeSeen, .peekBatchCqe 4 [], .cqAdvance 1] ∧
      trace (cqStep cqConfTwo) cqDelivered cqSysEmpty
        [.post [⟨1, 0, 0⟩, ⟨2, 0, 0⟩], .peekCqe, .cqeSeen, .peekBatchCqe 4 [], .cqAdvance 1] =
        [⟨1, 0, 0⟩, ⟨2, 0, 0⟩] :=
  have hext : hasFlag cqConfTwo.features IORING_FEAT_EXT_ARG = true := by decide
  have hl : Legal (cqStep cqConfTwo) (cqLegal cqConfTwo) cqSysEmpty
      [.post [⟨1, 0, 0⟩, ⟨2, 0, 0⟩], .peekCqe, .cqeSeen, .peekBatchCqe 4 [], .cqAdvance 1] := by decide
  ⟨hext, cqSysEmpty_inv, hl, (cq_ring_lossless_fifo cqConfTwo hext _ cqSysEmpty_inv _ hl).2.1.trans (by decide)⟩

end Liburing
