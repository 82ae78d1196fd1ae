import Liburing.Defs
import Liburing.Ring.Counter
import Liburing.Ring.Window
import Liburing.Ring.Fifo
/-!
# The submission queue (liburing.h:1218-1240, :1406-1428; queue.c:204-231; setup.c:338-347)

| here | there |
| --- | --- |
| `SqConf`         | the fields of `struct io_uring` / `io_uring_sq` fixed at setup: `ring->flags`, `sq->ring_entries`, `sq->ring_mask` |
| `SqState`        | `sq->sqe_head`, `sq->sqe_tail`, `*sq->ktail`, `*sq->khead`, the `sqes` and `array` memory |
| `fillSqArray`    | the identity loop of `__io_uring_queue_init_params` (setup.c:343-347) |
| `_ioUringGetSqe` | `_io_uring_get_sqe` (liburing.h:1406) |
| `__ioUringFlushSq` | `__io_uring_flush_sq` (queue.c:204), reached from every submit path |
| `ioUringSqReady`, `ioUringSqSpaceLeft` | liburing.h:1218, :1237 |
| `kernelSqeSlot`  | where the kernel reads SQ position `p`: `sqes[array[p & mask] << shift]`, or `sqes[(p & mask) << shift]` under NO_SQARRAY |

The SQE contents are a type parameter: the ring never looks inside an SQE. One cell of `sqes`
is one 64-byte unit; under IORING_SETUP_SQE128 an SQE spans two units and its index is shifted
by one.

The ring is a staged FIFO (`Ring/Fifo.lean`): SQEs obtained and not yet submitted are held by
the application, positions `[sqe_head, sqe_tail)`; submitted and not yet consumed ones are the
kernel's queue, `[khead, ktail)`. Everything is proved for wrapping 32-bit counters.
-/
set_option linter.style.nameCheck false

namespace Liburing

open SlotRing

/-- The parts of the ring that setup fixes: the SQ has `2^logEntries ≤ 32768` entries and the
mask the kernel publishes is `ring_entries - 1`. -/
structure SqConf where
  flags : U32
  ringEntries : U32
  ringMask : U32
  logEntries : Nat
  log_le : logEntries ≤ 15
  entries_eq : ringEntries = BitVec.ofNat 32 (2 ^ logEntries)
  mask_eq : ringMask = BitVec.ofNat 32 (2 ^ logEntries - 1)

/-- The SQ as the application and the kernel share it. -/
structure SqState (α : Type) where
  sqeHead : U32
  sqeTail : U32
  ktail : U32
  khead : U32
  sqes : U32 → α
  array : U32 → U32

variable {α : Type}

/-- `shift` of `_io_uring_get_sqe`: one for 128-byte SQEs. -/
def SqConf.shift (c : SqConf) : Nat := if hasFlag c.flags IORING_SETUP_SQE128 then 1 else 0

/-- The SQE unit holding SQ position `p`: `(p & sq->ring_mask) << shift`. -/
def SqConf.sqeSlot (c : SqConf) (p : U32) : U32 := (p &&& c.ringMask) <<< c.shift

/-- `_io_uring_get_sqe`: the index of a vacant SQE, or `NULL` when the ring is full. -/
def _ioUringGetSqe (c : SqConf) (s : SqState α) : SqState α × Option U32 :=
  let next := s.sqeTail + 1
  let shift := if hasFlag c.flags IORING_SETUP_SQE128 then 1 else 0
  -- `IO_URING_READ_ONCE(*sq->khead)`, or a load-acquire under SQPOLL: the same value here
  let head := s.khead
  if next - head ≤ c.ringEntries then
    ({ s with sqeTail := next }, some ((s.sqeTail &&& c.ringMask) <<< shift))
  else (s, none)

/-- `__io_uring_flush_sq`: publish the tail to the kernel, return the pending count. -/
def __ioUringFlushSq (s : SqState α) : SqState α × U32 :=
  let tail := s.sqeTail
  -- the write to `*sq->ktail` is a plain or a release store; both publish `tail`
  let s := if s.sqeHead ≠ tail then { s with sqeHead := tail, ktail := tail } else s
  (s, tail - s.khead)

/-- `io_uring_sq_ready`: entries not yet consumed by the kernel. -/
def ioUringSqReady (s : SqState α) : U32 := s.sqeTail - s.khead

/-- `io_uring_sq_space_left`. -/
def ioUringSqSpaceLeft (c : SqConf) (s : SqState α) : U32 := c.ringEntries - ioUringSqReady s

/-- `sq_array[index] = index` for `index < n` (setup.c:345-346). -/
def fillSqArray (arr : U32 → U32) : Nat → U32 → U32
  | 0 => arr
  | n + 1 => Function.update (fillSqArray arr n) (BitVec.ofNat 32 n) (BitVec.ofNat 32 n)

/-- The SQ right after `__io_uring_queue_init_params`: the ring is zeroed, the kernel's head
and tail start at 0, and the sq array (if any) maps every slot to itself. -/
def sqInit (c : SqConf) (sqes : U32 → α) (arr : U32 → U32) : SqState α :=
  { sqeHead := 0, sqeTail := 0, ktail := 0, khead := 0, sqes,
    array := if hasFlag c.flags IORING_SETUP_NO_SQARRAY then arr else fillSqArray arr c.ringEntries.toNat }

/-- Where the kernel reads SQ position `p`: the SQE that `array[p & mask]` names, or slot
`p & mask` itself under IORING_SETUP_NO_SQARRAY, shifted for 128-byte SQEs. -/
def kernelSqeSlot (c : SqConf) (s : SqState α) (p : U32) : U32 :=
  if hasFlag c.flags IORING_SETUP_NO_SQARRAY then (p &&& c.ringMask) <<< c.shift
  else s.array (p &&& c.ringMask) <<< c.shift

/-- What the kernel reads when it consumes `k` entries from `khead`. -/
def kernelSqRead (c : SqConf) (s : SqState α) (k : Nat) : List α :=
  window (fun p => s.sqes (kernelSqeSlot c s (BitVec.ofNat 32 p))) s.khead.toNat k

/-! ## Runs -/

/-- What happens to the SQ: the library's two operations, the application filling an SQE it
holds, and the kernel consuming submitted entries. -/
inductive SqOp (α : Type) where
  /-- `io_uring_get_sqe`. -/
  | getSqe
  /-- The application writes `v` into the `i`-th SQE it obtained since the last submit. -/
  | write (i : Nat) (v : α)
  /-- `__io_uring_flush_sq`, called by every `io_uring_submit*` function. -/
  | flush
  /-- The kernel consumes `k` submitted entries. -/
  | consume (k : Nat)

/-- The environment's moves are constrained: the application only writes SQEs it holds, the
kernel only consumes what was submitted. -/
def sqLegal (s : SqState α) : SqOp α → Prop
  | .write i _ => i < (s.sqeTail - s.sqeHead).toNat
  | .consume k => k ≤ (s.ktail - s.khead).toNat
  | _ => True

instance sqLegal.decidable (s : SqState α) : (op : SqOp α) → Decidable (sqLegal s op)
  | .getSqe => inferInstanceAs (Decidable True)
  | .write i _ => inferInstanceAs (Decidable (i < (s.sqeTail - s.sqeHead).toNat))
  | .flush => inferInstanceAs (Decidable True)
  | .consume k => inferInstanceAs (Decidable (k ≤ (s.ktail - s.khead).toNat))

def sqStep (c : SqConf) (s : SqState α) : SqOp α → SqState α
  | .getSqe => (_ioUringGetSqe c s).1
  | .write i v => { s with sqes := Function.update s.sqes (c.sqeSlot (s.sqeHead + BitVec.ofNat 32 i)) v }
  | .flush => (__ioUringFlushSq s).1
  | .consume k => { s with khead := s.khead + BitVec.ofNat 32 k }

/-- What the kernel reads in a step. -/
def sqKernelReads (c : SqConf) (s : SqState α) : SqOp α → List α
  | .consume k => kernelSqRead c s k
  | _ => []

/-- The abstract actions a step performs: a successful `io_uring_get_sqe` stages the SQE it
hands out, with whatever the slot holds. -/
def sqLabel (c : SqConf) (s : SqState α) : SqOp α → List (Act α)
  | .getSqe => match (_ioUringGetSqe c s).2 with
    | some i => [.stage (s.sqes i)]
    | none => []
  | .write i v => [.edit i v]
  | .flush => [.publish]
  | .consume k => [.take k]

/-- The SQE unit of an unbounded position (the counter is the position modulo `2^32`). -/
def SqConf.posSlot (c : SqConf) (p : Nat) : U32 := c.sqeSlot (BitVec.ofNat 32 p)

/-- The ring as a staged FIFO: the kernel's queue `[khead, ktail)` and the application's SQEs
`[sqe_head, sqe_tail)`, read through the application's index. -/
def sqView (c : SqConf) (s : SqState α) : Staged α :=
  ⟨window (fun p => s.sqes (c.posSlot p)) s.khead.toNat (s.ktail - s.khead).toNat,
   window (fun p => s.sqes (c.posSlot p)) s.sqeHead.toNat (s.sqeTail - s.sqeHead).toNat⟩

/-! ## The configuration -/

namespace SqConf

variable (c : SqConf)

theorem shift_le : c.shift ≤ 1 := by unfold shift; split <;> omega

theorem log_add_shift_le : c.logEntries + c.shift ≤ 32 := by
  have := c.log_le; have := c.shift_le; omega

theorem toNat_ringEntries : c.ringEntries.toNat = 2 ^ c.logEntries := by
  rw [c.entries_eq]
  exact toNat_ofNat_two_pow (by have := c.log_le; omega)

theorem two_pow_log_le : 2 ^ c.logEntries ≤ 2 ^ 15 := Nat.pow_le_pow_right (by decide) c.log_le

/-- The SQE of a position is the cell of the ring library, as for the CQ. -/
theorem posSlot_eq_cellOf (p : Nat) : c.posSlot p = cellOf 32 c.logEntries c.shift p := by
  rw [posSlot, sqeSlot, c.mask_eq, cellOf]

theorem posSlot_mod (p : Nat) : c.posSlot (p % 2 ^ 32) = c.posSlot p := by
  rw [posSlot_eq_cellOf, posSlot_eq_cellOf, cellOf_mod]

theorem posSlot_toNat (p : U32) : c.posSlot p.toNat = c.sqeSlot p := by
  rw [posSlot, BitVec.ofNat_toNat, BitVec.setWidth_eq]

/-- Positions fewer than `2^logEntries` apart use distinct SQEs. -/
theorem posSlot_ne {b i j : Nat} (hi : i < 2 ^ c.logEntries) (hj : j < 2 ^ c.logEntries) (hij : i ≠ j) :
    c.posSlot (b + i) ≠ c.posSlot (b + j) := by
  rw [posSlot_eq_cellOf, posSlot_eq_cellOf]
  exact cellOf_ne c.log_add_shift_le hi hj hij

end SqConf

/-! ## The invariant -/

/-- What holds of the SQ after setup and after every step: the submitted tail is the library's
`sqe_head`; the kernel's head, the submitted tail and the application's tail come in this
order around the ring and span at most `ring_entries` positions; the sq array (if any) is the
identity on the slots. -/
structure SqInv (c : SqConf) (s : SqState α) : Prop where
  head_eq : s.sqeHead = s.ktail
  ready_le : (s.sqeTail - s.khead).toNat ≤ 2 ^ c.logEntries
  kernel_le : (s.ktail - s.khead).toNat ≤ (s.sqeTail - s.khead).toNat
  array_id : hasFlag c.flags IORING_SETUP_NO_SQARRAY = false →
    ∀ i : U32, i.toNat < 2 ^ c.logEntries → s.array i = i

theorem fillSqArray_apply (arr : U32 → U32) :
    ∀ n, n ≤ 2 ^ 32 → ∀ i : U32, i.toNat < n → fillSqArray arr n i = i
  | 0, _, _, hi => absurd hi (Nat.not_lt_zero _)
  | n + 1, hn, i, hi => by
    rw [fillSqArray]
    by_cases e : i = BitVec.ofNat 32 n
    · rw [e, Function.update_self]
    · rw [Function.update_of_ne e]
      have hne : i.toNat ≠ n := fun h => e (by rw [← h, BitVec.ofNat_toNat, BitVec.setWidth_eq])
      exact fillSqArray_apply arr n (by omega) i (by omega)

theorem sqInit_inv (c : SqConf) (sqes : U32 → α) (arr : U32 → U32) : SqInv c (sqInit c sqes arr) where
  head_eq := rfl
  ready_le := by simp [sqInit]
  kernel_le := by simp [sqInit]
  array_id := fun hno i hi => by
    simp only [sqInit, hno, Bool.false_eq_true, if_false]
    exact fillSqArray_apply arr _ (by rw [c.toNat_ringEntries]; have := c.two_pow_log_le; omega) i
      (by rw [c.toNat_ringEntries]; exact hi)

section
variable {c : SqConf} {s : SqState α}

/-- The number of SQEs the application holds. -/
theorem SqInv.held_eq (h : SqInv c s) :
    (s.sqeTail - s.sqeHead).toNat = (s.sqeTail - s.khead).toNat - (s.ktail - s.khead).toNat := by
  rw [h.head_eq, toNat_sub_of_toNat_sub_le h.kernel_le]

/-- Under the identity sq array the kernel reads each position where the application wrote it. -/
theorem SqInv.kernelSqeSlot_eq (h : SqInv c s) (p : U32) : kernelSqeSlot c s p = c.sqeSlot p := by
  unfold kernelSqeSlot SqConf.sqeSlot
  cases hno : hasFlag c.flags IORING_SETUP_NO_SQARRAY
  · have hlt : (p &&& c.ringMask).toNat < 2 ^ c.logEntries := by
      rw [c.mask_eq, toNat_and_mask p (by have := c.log_le; omega)]
      exact Nat.mod_lt _ (Nat.two_pow_pos _)
    rw [if_neg (by simp), h.array_id hno _ hlt]
  · rfl

/-- The view in one coordinate: the kernel's queue from `khead` for `ktail - khead` positions,
then the application's SQEs up to `sqe_tail`. -/
theorem SqInv.sqView_eq (h : SqInv c s) :
    sqView c s = ⟨window (fun p => s.sqes (c.posSlot p)) s.khead.toNat (s.ktail - s.khead).toNat,
      window (fun p => s.sqes (c.posSlot p)) (s.khead.toNat + (s.ktail - s.khead).toNat)
        ((s.sqeTail - s.khead).toNat - (s.ktail - s.khead).toNat)⟩ := by
  rw [sqView, h.held_eq, h.head_eq, toNat_eq_add_sub s.ktail s.khead,
    window_mod (fun p => by rw [c.posSlot_mod])]

/-- A counter's SQE is the SQE of its position counted from any other counter. -/
theorem SqConf.posSlot_toNat_add_sub (c : SqConf) (a b : U32) : c.posSlot (b.toNat + (a - b).toNat) = c.sqeSlot a := by
  rw [← c.posSlot_toNat, toNat_eq_add_sub a b, c.posSlot_mod]

theorem SqConf.posSlot_mod_add (c : SqConf) (x i : Nat) : c.posSlot (x % 2 ^ 32 + i) = c.posSlot (x + i) := by
  rw [← c.posSlot_mod, Nat.mod_add_mod, c.posSlot_mod]

/-! ## One operation at a time -/

/-- `_io_uring_get_sqe` succeeds exactly when fewer than `ring_entries` entries are unconsumed,
and then hands out the SQE of position `sqe_tail`. -/
theorem SqInv.getSqe_eq (h : SqInv c s) :
    _ioUringGetSqe c s =
      if (s.sqeTail - s.khead).toNat < 2 ^ c.logEntries then
        ({ s with sqeTail := s.sqeTail + 1 }, some (c.sqeSlot s.sqeTail))
      else (s, none) := by
  have hr := h.ready_le
  have hnext : (s.sqeTail + 1 - s.khead).toNat = (s.sqeTail - s.khead).toNat + 1 :=
    toNat_add_sub (k := 1) (by have := c.two_pow_log_le; omega)
  unfold _ioUringGetSqe
  simp only [BitVec.le_def, hnext, c.toNat_ringEntries]
  by_cases hR : (s.sqeTail - s.khead).toNat < 2 ^ c.logEntries
  · rw [if_pos (by omega), if_pos hR]; rfl
  · rw [if_neg (by omega), if_neg hR]

/-- Under the invariant `__io_uring_flush_sq` always publishes `sqe_tail` (when nothing new was
queued it already was) and returns everything the kernel has not consumed. -/
theorem SqInv.flushSq_eq (h : SqInv c s) :
    __ioUringFlushSq s = ({ s with sqeHead := s.sqeTail, ktail := s.sqeTail }, s.sqeTail - s.khead) := by
  unfold __ioUringFlushSq
  by_cases e : s.sqeHead = s.sqeTail
  · have hk : s.ktail = s.sqeTail := h.head_eq ▸ e
    obtain ⟨sh, st, kt, kh, sq, ar⟩ := s
    simp only at e hk
    subst e hk
    simp
  · simp [e]

theorem sqStep_inv (h : SqInv c s) (op : SqOp α) (hl : sqLegal s op) : SqInv c (sqStep c s op) := by
  have hr := h.ready_le
  have hk := h.kernel_le
  cases op with
  | getSqe =>
    simp only [sqStep, h.getSqe_eq]
    split
    · rename_i hlt
      have hnext : (s.sqeTail + 1 - s.khead).toNat = (s.sqeTail - s.khead).toNat + 1 :=
        toNat_add_sub (k := 1) (by have := c.two_pow_log_le; omega)
      exact ⟨h.head_eq, by simp only [hnext]; omega, by simp only [hnext]; omega, h.array_id⟩
    · exact h
  | write i v => exact ⟨h.head_eq, h.ready_le, h.kernel_le, h.array_id⟩
  | flush =>
    simp only [sqStep, h.flushSq_eq]
    exact ⟨rfl, h.ready_le, le_refl _, h.array_id⟩
  | consume k =>
    simp only [sqLegal] at hl
    have h1 : (s.sqeTail - (s.khead + BitVec.ofNat 32 k)).toNat = (s.sqeTail - s.khead).toNat - k :=
      toNat_sub_add (by omega)
    have h2 : (s.ktail - (s.khead + BitVec.ofNat 32 k)).toNat = (s.ktail - s.khead).toNat - k :=
      toNat_sub_add hl
    refine ⟨h.head_eq, ?_, ?_, h.array_id⟩ <;> dsimp only [sqStep] <;> omega

/-- Each operation moves the staged-FIFO view by its abstract actions. -/
theorem sqStep_view (h : SqInv c s) (op : SqOp α) (hl : sqLegal s op) :
    sqView c (sqStep c s op) = (sqView c s).run (sqLabel c s op) := by
  have hr := h.ready_le
  have hk := h.kernel_le
  have hL := h.held_eq
  have hlog := c.two_pow_log_le
  cases op with
  | getSqe =>
    simp only [sqStep, sqLabel, h.getSqe_eq]
    split
    · -- the new SQE is the slot of position `sqe_tail`, appended behind the held ones
      have hnext : (s.sqeTail + 1 - s.sqeHead).toNat = (s.sqeTail - s.sqeHead).toNat + 1 :=
        toNat_add_sub (k := 1) (by omega)
      simp only [sqView, Staged.run_cons, Staged.run_nil, Staged.act_stage, hnext, window_snoc,
        c.posSlot_toNat_add_sub]
    · rfl
  | write i v =>
    have h' := sqStep_inv h _ hl
    simp only [sqLegal] at hl
    have hslot : c.sqeSlot (s.sqeHead + BitVec.ofNat 32 i) =
        c.posSlot (s.khead.toNat + (s.ktail - s.khead).toNat + i) := by
      rw [← ofNat_toNat_add, ← SqConf.posSlot, h.head_eq, toNat_eq_add_sub s.ktail s.khead, c.posSlot_mod_add]
    rw [h'.sqView_eq, h.sqView_eq]
    simp only [sqStep, sqLabel, hslot, Staged.run_cons, Staged.run_nil, Staged.act_edit]
    congr 1
    · -- the kernel's queue does not use the slot of a held SQE
      apply window_update_of_ne v
      intro j hj
      have hne := c.posSlot_ne (b := s.khead.toNat) (i := j) (j := (s.ktail - s.khead).toNat + i)
        (by omega) (by omega) (by omega)
      rwa [← Nat.add_assoc] at hne
    · apply window_update_set v (by omega)
      intro j hj e
      by_contra hji
      exact c.posSlot_ne (b := s.khead.toNat + (s.ktail - s.khead).toNat) (by omega) (by omega) hji e
  | flush =>
    rw [h.sqView_eq]
    simp only [sqStep, sqLabel, h.flushSq_eq, sqView, BitVec.sub_self, BitVec.toNat_zero, window_zero,
      Staged.run_cons, Staged.run_nil, Staged.act_publish, ← window_add]
    congr 2
    omega
  | consume k =>
    have h' := sqStep_inv h _ hl
    simp only [sqLegal] at hl
    have hb : (s.khead + BitVec.ofNat 32 k).toNat = (s.khead.toNat + k) % 2 ^ 32 := toNat_add_ofNat _ _
    have h1 : (s.sqeTail - (s.khead + BitVec.ofNat 32 k)).toNat = (s.sqeTail - s.khead).toNat - k :=
      toNat_sub_add (by omega)
    have h2 : (s.ktail - (s.khead + BitVec.ofNat 32 k)).toNat = (s.ktail - s.khead).toNat - k :=
      toNat_sub_add hl
    have hper : ∀ p, s.sqes (c.posSlot (p % 2 ^ 32)) = s.sqes (c.posSlot p) := fun p => by rw [c.posSlot_mod]
    rw [h'.sqView_eq, h.sqView_eq]
    simp only [sqStep, sqLabel, hb, h1, h2, Staged.run_cons, Staged.run_nil, Staged.act_take]
    congr 1
    · rw [drop_window _ _ hl]
      exact window_mod_eq hper (Nat.mod_mod _ _) _
    · rw [show (s.sqeTail - s.khead).toNat - k - ((s.ktail - s.khead).toNat - k) =
          (s.sqeTail - s.khead).toNat - (s.ktail - s.khead).toNat by omega]
      apply window_mod_eq hper
      rw [Nat.mod_add_mod, Nat.add_assoc, Nat.add_sub_cancel' hl]

/-- A slot `io_uring_get_sqe` hands out is used neither by an entry the kernel has not consumed
nor by an SQE the application still holds. -/
theorem SqInv.getSqe_fresh (h : SqInv c s) {i : U32} (hi : (_ioUringGetSqe c s).2 = some i) :
    ∀ j < (s.sqeTail - s.khead).toNat, c.posSlot (s.khead.toNat + j) ≠ i := by
  rw [h.getSqe_eq] at hi
  split at hi
  · rename_i hlt
    cases hi
    intro j hj
    rw [← c.posSlot_toNat_add_sub s.sqeTail s.khead]
    exact c.posSlot_ne (by omega) hlt (by omega)
  · cases hi

/-- `__io_uring_flush_sq` returns the length of the kernel's queue after the flush: a short
submit's leftovers are counted again, without being queued again. -/
theorem SqInv.flushSq_count (h : SqInv c s) :
    (__ioUringFlushSq s).2.toNat = (sqView c (__ioUringFlushSq s).1).queue.length := by
  simp [h.flushSq_eq, sqView]

theorem SqInv.sqReady_eq (h : SqInv c s) :
    (ioUringSqReady s).toNat = (sqView c s).queue.length + (sqView c s).held.length := by
  have := h.kernel_le
  rw [h.sqView_eq, ioUringSqReady]
  simp only [length_window]
  omega

theorem SqInv.sqSpaceLeft_eq (h : SqInv c s) :
    (ioUringSqSpaceLeft c s).toNat = 2 ^ c.logEntries - ((sqView c s).queue.length + (sqView c s).held.length) := by
  rw [← h.sqReady_eq, ioUringSqSpaceLeft, BitVec.toNat_sub_of_le, c.toNat_ringEntries]
  rw [BitVec.le_def, c.toNat_ringEntries]
  exact h.ready_le

/-- The kernel reads exactly what the abstract actions take. -/
theorem sqStep_reads (h : SqInv c s) (op : SqOp α) (hl : sqLegal s op) :
    sqKernelReads c s op = (sqView c s).takenBy (sqLabel c s op) := by
  cases op with
  | getSqe =>
    simp only [sqKernelReads, sqLabel]
    split <;> rfl
  | write i v => rfl
  | flush => rfl
  | consume k =>
    simp only [sqLegal] at hl
    have hslot : (fun p => s.sqes (kernelSqeSlot c s (BitVec.ofNat 32 p))) = fun p => s.sqes (c.posSlot p) :=
      funext fun p => by rw [h.kernelSqeSlot_eq]; rfl
    simp only [sqKernelReads, kernelSqRead, sqLabel, hslot, Staged.takenBy_cons, Staged.takenBy_nil,
      Staged.taken_take, sqView, List.append_nil, take_window _ _ hl]

end

/-- **The SQ ring is a lossless FIFO whose slots alternate between application and kernel.**
Over every legal run of `io_uring_get_sqe`, writes into held SQEs, `__io_uring_flush_sq` and kernel
consumption, from any state satisfying `SqInv` (in particular `sqInit`), counters wrapping freely:
after every step the invariant holds, `io_uring_get_sqe` succeeds exactly while fewer than
`ring_entries` SQEs are held or queued, and the slot it hands out is owned by nobody,
`__io_uring_flush_sq` returns the kernel's pending count and `io_uring_sq_ready` /
`io_uring_sq_space_left` are exact; the ring follows the staged FIFO along the run's actions, and
the kernel reads exactly what that FIFO takes: what was queued followed by everything submitted is
what the kernel read followed by what is still queued. -/
theorem sq_ring_lossless_fifo (c : SqConf) (s : SqState α) (hs : SqInv c s) (ops : List (SqOp α))
    (hl : Legal (sqStep c) sqLegal s ops) :
    (∀ n, let t := run (sqStep c) s (ops.take n)
      SqInv c t ∧
        _ioUringGetSqe c t =
          (if (t.sqeTail - t.khead).toNat < 2 ^ c.logEntries then
            ({ t with sqeTail := t.sqeTail + 1 }, some (c.sqeSlot t.sqeTail))
          else (t, none)) ∧
        (∀ i, (_ioUringGetSqe c t).2 = some i →
          ∀ j < (t.sqeTail - t.khead).toNat, c.posSlot (t.khead.toNat + j) ≠ i) ∧
        (__ioUringFlushSq t).2.toNat = (sqView c (__ioUringFlushSq t).1).queue.length ∧
        (ioUringSqReady t).toNat = (sqView c t).queue.length + (sqView c t).held.length ∧
        (ioUringSqSpaceLeft c t).toNat =
          2 ^ c.logEntries - ((sqView c t).queue.length + (sqView c t).held.length)) ∧
    sqView c (run (sqStep c) s ops) = (sqView c s).run (trace (sqStep c) (sqLabel c) s ops) ∧
    trace (sqStep c) (sqKernelReads c) s ops = (sqView c s).takenBy (trace (sqStep c) (sqLabel c) s ops) ∧
    (sqView c s).queue ++ (sqView c s).publishedBy (trace (sqStep c) (sqLabel c) s ops) =
      trace (sqStep c) (sqKernelReads c) s ops ++ (sqView c (run (sqStep c) s ops)).queue := by
  refine ⟨fun n => ?_, refines (SqInv c) (sqView c) (sqLabel c) (sqKernelReads c)
    (fun _ op h hl => sqStep_inv h op hl) (fun _ op h hl => sqStep_view h op hl)
    (fun _ op h hl => sqStep_reads h op hl) s ops hs hl⟩
  have ht := run_invariant_prefix (SqInv c) (fun _ op h hl => sqStep_inv h op hl) s ops hs hl n
  exact ⟨ht, ht.getSqe_eq, fun _ hi => ht.getSqe_fresh hi, ht.flushSq_count, ht.sqReady_eq, ht.sqSpaceLeft_eq⟩

/-- A two-entry ring, legacy sq array whose memory held 5 in every slot before setup filled it:
obtain one SQE, fill it, submit, let the kernel take it. -/
def sqConfTwo : SqConf := ⟨0, 2, 1, 1, Nat.le_of_ble_eq_true rfl, BitVec.eq_of_toNat_eq rfl, BitVec.eq_of_toNat_eq rfl⟩

theorem sq_ring_lossless_fifo_two :
    SqInv sqConfTwo (sqInit sqConfTwo (fun _ => 0) (fun _ => 5)) ∧
      Legal (sqStep sqConfTwo) sqLegal (sqInit sqConfTwo (fun _ => 0) (fun _ => 5))
        [.getSqe, .write 0 7, .flush, .consume 1] ∧
      trace (sqStep sqConfTwo) (sqKernelReads sqConfTwo) (sqInit sqConfTwo (fun _ => 0) (fun _ => 5))
        [.getSqe, .write 0 7, .flush, .consume 1] = [7] :=
  have hs := sqInit_inv sqConfTwo (fun _ => (0 : Nat)) (fun _ => 5)
  have hl : Legal (sqStep sqConfTwo) sqLegal (sqInit sqConfTwo (fun _ => 0) (fun _ => 5))
      [.getSqe, .write 0 7, .flush, .consume 1] := by decide
  ⟨hs, hl, (sq_ring_lossless_fifo sqConfTwo _ hs _ hl).2.2.1.trans (by decide)⟩

end Liburing
