import Liburing.Entries
/-!
# The memory `io_uring_alloc_huge` hands the kernel (setup.c:205-289, :98-149)

| here | there |
| --- | --- |
| `kernelSqeSize`, `kernelCqeSize` | `sizeof(struct io_uring_sqe)` (128 under IORING_SETUP_SQE128), `sizeof(struct io_uring_cqe)` (32 under IORING_SETUP_CQE32) |
| `kernelRingsBytes` | what the kernel lays out at `cq_off.user_addr`: the header of `cq_off.cqes` bytes, the CQEs, the SQ array |
| `HugeLayout`, `layoutOf` | the areas at `p->sq_off.user_addr` and `p->cq_off.user_addr` inside `[buf, buf + ret)` |

With IORING_SETUP_NO_MMAP the kernel uses the memory at the two user addresses as its SQEs and as
its rings. `io_uring_mmap` sizes what it maps from the kernel's `cq_off.cqes` and from the SQE
size; `io_uring_alloc_huge` sizes the memory from `64 * sq_entries` and from the CQEs and the SQ
array only. Its layout is right for what it counts (`allocHuge_buf_layout`: the SQEs at `buf`,
rounded up to pages, then the rings, rounded up to pages, and the count it returns), and misses
the rings' header whenever the CQEs and the SQ array fill whole pages, and half of the SQEs under
IORING_SETUP_SQE128.
-/
set_option linter.style.nameCheck false

namespace Liburing

open AddrSpace

/-! ## What the kernel lays out -/

/-- The size of an SQE as the kernel lays them out. -/
def kernelSqeSize (flags : U32) : Nat := if hasFlag flags IORING_SETUP_SQE128 then 128 else 64

/-- The size of a CQE as the kernel lays them out. -/
def kernelCqeSize (flags : U32) : Nat := if hasFlag flags IORING_SETUP_CQE32 then 32 else 16

/-- The bytes of the kernel's rings: a header of `header` bytes (`cq_off.cqes`), the CQEs, and
the SQ array unless IORING_SETUP_NO_SQARRAY. -/
def kernelRingsBytes (flags : U32) (header sq cq : Nat) : Nat :=
  header + kernelCqeSize flags * cq + if hasFlag flags IORING_SETUP_NO_SQARRAY then 0 else 4 * sq

/-- The memory of a ring in a buffer: `used` bytes at `buf`, the SQEs at `sqAddr`, the rings at
`cqAddr`. -/
structure HugeLayout where
  buf : Nat
  used : Nat
  sqAddr : Nat
  cqAddr : Nat
deriving DecidableEq, Repr

/-- The layout holds what the kernel puts there: the SQEs from `sqAddr` end before the rings, and
the rings end inside the bytes used. -/
def HugeLayout.Covers (l : HugeLayout) (flags : U32) (header sq cq : Nat) : Prop :=
  l.buf ≤ l.sqAddr ∧ l.sqAddr + kernelSqeSize flags * sq ≤ l.cqAddr ∧
    l.cqAddr + kernelRingsBytes flags header sq cq ≤ l.buf + l.used

instance (l : HugeLayout) (flags : U32) (header sq cq : Nat) : Decidable (l.Covers flags header sq cq) := by
  unfold HugeLayout.Covers
  infer_instance

/-- The layout of a call of `io_uring_alloc_huge` with the buffer `buf` that returned `ret` and
filled in `p`. -/
def layoutOf (buf : U64) (ret : Int32) (p : IoUringParams) : HugeLayout :=
  ⟨buf.toNat, ret.toInt.toNat, p.sqOffUserAddr.toNat, p.cqOffUserAddr.toNat⟩

/-! ## The sizes the code computes -/

section
variable {pageSize : U64} {k : Nat}

theorem pageSize_pos (hk : pageSize.toNat = 2 ^ k) : 0 < pageSize.toNat := hk ▸ Nat.two_pow_pos k

theorem sqesMemOf_toNat (hk : pageSize.toNat = 2 ^ k) (hk24 : k ≤ 24) (sq : U32) :
    (sqesMemOf pageSize sq).toNat = roundUp (64 * sq.toNat) pageSize.toNat := by
  have hsq := sq.isLt
  have hp : 2 ^ k ≤ 2 ^ 24 := Nat.pow_le_pow_right Nat.two_pos hk24
  have h64 : (64 : U64).toNat = 64 := rfl
  have hx : (sq.setWidth 64 * 64).toNat = 64 * sq.toNat := by
    rw [BitVec.toNat_mul, BitVec.toNat_setWidth, h64]
    omega
  unfold sqesMemOf
  rw [alignUp_toNat _ _ hk (by omega), hx]

/-- `ring_mem` is what the kernel's rings take without their header. -/
theorem ringMemOf_toNat (flags : U32) (sq cq : U32) :
    (ringMemOf flags sq cq).toNat = kernelRingsBytes flags 0 sq.toNat cq.toNat := by
  have hsq := sq.isLt
  have hcq := cq.isLt
  have h2 : (2 : U64).toNat = 2 := rfl
  have h4 : (4 : U64).toNat = 4 := rfl
  have h16 : (16 : U64).toNat = 16 := rfl
  unfold ringMemOf kernelRingsBytes kernelCqeSize
  by_cases h32 : hasFlag flags IORING_SETUP_CQE32 <;> by_cases hna : hasFlag flags IORING_SETUP_NO_SQARRAY <;>
    simp only [h32, hna, if_true, if_false, Bool.not_true, Bool.not_false, Bool.false_eq_true, BitVec.toNat_add,
      BitVec.toNat_mul, BitVec.toNat_setWidth, h2, h4, h16] <;> omega

theorem ringMemOf_lt (flags : U32) (sq cq : U32) (hsq : sq.toNat ≤ 2 ^ 15) (hcq : cq.toNat ≤ 2 ^ 16) :
    (ringMemOf flags sq cq).toNat ≤ 2 ^ 22 := by
  rw [ringMemOf_toNat]
  unfold kernelRingsBytes kernelCqeSize
  split <;> split <;> omega

/-- The SQEs fill whole pages, so `mem_used` is they and the rings rounded up on their own. -/
theorem memUsedOf_toNat (hk : pageSize.toNat = 2 ^ k) (hk24 : k ≤ 24) {sqesMem ringMem : U64}
    (hS : pageSize.toNat ∣ sqesMem.toNat) (hSlt : sqesMem.toNat ≤ 2 ^ 25) (hR : ringMem.toNat ≤ 2 ^ 22) :
    (memUsedOf pageSize sqesMem ringMem).toNat = sqesMem.toNat + roundUp ringMem.toNat pageSize.toNat := by
  have hp : 2 ^ k ≤ 2 ^ 24 := Nat.pow_le_pow_right Nat.two_pos hk24
  have hpos := pageSize_pos hk
  have hsum : (sqesMem + ringMem).toNat = sqesMem.toNat + ringMem.toNat := BitVec.toNat_add_of_lt (by omega)
  unfold memUsedOf
  rw [alignUp_toNat _ _ hk (by omega), hsum, roundUp_add_of_dvd hpos _ hS]

end

/-! ## The layout of a successful allocation in a buffer -/

/-- What `io_uring_alloc_huge` returns with a caller's buffer: the SQEs at `buf`, `64 * sq_entries`
bytes rounded up to pages; the rings right behind them, `ring_mem` bytes rounded up to pages;
the count of both, which fits the buffer. -/
theorem allocHuge_buf_layout {entries : U32} {p p' : IoUringParams} {pageSize buf bufSize : U64} {k : Nat}
    {m m' : RingMem} {s s' : Sys} {ret : Int32} (hk : pageSize.toNat = 2 ^ k) (hk24 : k ≤ 24) (hbuf : buf ≠ 0)
    (hend : buf.toNat + bufSize.toNat ≤ 2 ^ 64)
    (h : ioUringAllocHuge entries p pageSize m buf bufSize s = some ((ret, p', m'), s')) (hret : 0 ≤ ret) :
    ∃ sq cq, getSqCqEntries entries p = .ok (sq, cq) ∧
      layoutOf buf ret p' = ⟨buf.toNat, roundUp (64 * sq.toNat) pageSize.toNat +
          roundUp (ringMemOf p.flags sq cq).toNat pageSize.toNat, buf.toNat,
          buf.toNat + roundUp (64 * sq.toNat) pageSize.toNat⟩ ∧
      ret.toInt ≤ bufSize.toNat := by
  obtain ⟨-, hcases⟩ := allocHuge_buf hbuf h
  obtain ⟨sq, cq, hg, hfit, rfl, -, rfl⟩ := hcases.resolve_left (Int32.not_lt.2 hret)
  obtain ⟨a, b, ha, hb, hsq, hcq⟩ := getSqCqEntries_pow hg
  have hsq15 : sq.toNat ≤ 2 ^ 15 := hsq ▸ Nat.pow_le_pow_right Nat.two_pos ha
  have hcq16 : cq.toNat ≤ 2 ^ 16 := hcq ▸ Nat.pow_le_pow_right Nat.two_pos hb
  have hpos := pageSize_pos hk
  have hp : 2 ^ k ≤ 2 ^ 24 := Nat.pow_le_pow_right Nat.two_pos hk24
  -- the sizes as naturals
  have hS := sqesMemOf_toNat hk hk24 sq
  have hSlt : (sqesMemOf pageSize sq).toNat ≤ 2 ^ 25 := by
    have := roundUp_lt (64 * sq.toNat) hpos
    omega
  have hR := ringMemOf_lt p.flags sq cq hsq15 hcq16
  have hU := memUsedOf_toNat hk hk24 (hS ▸ dvd_roundUp _) hSlt hR
  have hRpos : 0 < (ringMemOf p.flags sq cq).toNat := by
    rw [ringMemOf_toNat]
    unfold kernelRingsBytes kernelCqeSize
    have : 1 ≤ cq.toNat := hcq ▸ Nat.one_le_two_pow
    split <;> omega
  have hRup := le_roundUp (ringMemOf p.flags sq cq).toNat hpos
  have hRup' := roundUp_lt (ringMemOf p.flags sq cq).toNat hpos
  have hfitN := BitVec.le_def.1 hfit
  -- the count fits an `int`, and the address of the rings does not wrap
  have hret' : (Int32.ofBitVec ((memUsedOf pageSize (sqesMemOf pageSize sq) (ringMemOf p.flags sq cq)).setWidth 32)).toInt =
      (memUsedOf pageSize (sqesMemOf pageSize sq) (ringMemOf p.flags sq cq)).toNat := by
    rw [Int32.toInt_ofBitVec, BitVec.toInt_eq_toNat_cond, BitVec.toNat_setWidth, if_pos (by omega),
      Nat.mod_eq_of_lt (by omega)]
  have hcqAddr : (buf + sqesMemOf pageSize sq).toNat = buf.toNat + (sqesMemOf pageSize sq).toNat :=
    BitVec.toNat_add_of_lt (by omega)
  refine ⟨sq, cq, hg, ?_, ?_⟩
  · simp only [layoutOf, hret', hcqAddr, hU, hS, Int.toNat_natCast]
  · rw [hret']
    exact_mod_cast hfitN

/-! ## What the layout holds -/

/-- A layout of the shape `io_uring_alloc_huge` builds holds the kernel's SQEs and rings exactly
when the two areas are large enough. -/
theorem covers_iff (B S R : Nat) (flags : U32) (header sq cq : Nat) :
    (⟨B, S + R, B, B + S⟩ : HugeLayout).Covers flags header sq cq ↔
      kernelSqeSize flags * sq ≤ S ∧ kernelRingsBytes flags header sq cq ≤ R := by
  unfold HugeLayout.Covers
  dsimp only
  omega

theorem kernelRingsBytes_header (flags : U32) (header sq cq : Nat) :
    kernelRingsBytes flags header sq cq = header + kernelRingsBytes flags 0 sq cq := by
  unfold kernelRingsBytes
  omega

/-- A layout that is right for what it counts: 64-byte SQEs and rings without a header. -/
theorem covers_counted {pageSize : U64} (hpos : 0 < pageSize.toNat) (B : Nat) (flags : U32) (sq cq : U32)
    (h128 : hasFlag flags IORING_SETUP_SQE128 = false) :
    (⟨B, roundUp (64 * sq.toNat) pageSize.toNat + roundUp (ringMemOf flags sq cq).toNat pageSize.toNat, B,
      B + roundUp (64 * sq.toNat) pageSize.toNat⟩ : HugeLayout).Covers flags 0 sq.toNat cq.toNat := by
  rw [covers_iff, ← ringMemOf_toNat]
  have hsqe : kernelSqeSize flags = 64 := by simp [kernelSqeSize, h128]
  rw [hsqe]
  exact ⟨le_roundUp _ hpos, le_roundUp _ hpos⟩

/-- When the CQEs and the SQ array fill whole pages, no header fits behind them. -/
theorem misses_header {pageSize : U64} (hpos : 0 < pageSize.toNat) (B : Nat) (flags : U32) (sq cq : U32)
    (hdvd : pageSize.toNat ∣ (ringMemOf flags sq cq).toNat) {header : Nat} (hh : 0 < header) :
    ¬ (⟨B, roundUp (64 * sq.toNat) pageSize.toNat + roundUp (ringMemOf flags sq cq).toNat pageSize.toNat, B,
      B + roundUp (64 * sq.toNat) pageSize.toNat⟩ : HugeLayout).Covers flags header sq.toNat cq.toNat := by
  rw [covers_iff, roundUp_of_dvd hpos hdvd, kernelRingsBytes_header, ← ringMemOf_toNat]
  omega

/-- When `64 * sq_entries` fills whole pages, 128-byte SQEs overrun the rings. -/
theorem misses_sqe128 {pageSize : U64} (hpos : 0 < pageSize.toNat) (B : Nat) (flags : U32) (sq cq : U32)
    (h128 : hasFlag flags IORING_SETUP_SQE128 = true) (hdvd : pageSize.toNat ∣ 64 * sq.toNat) (hsq : 0 < sq.toNat)
    (header : Nat) :
    ¬ (⟨B, roundUp (64 * sq.toNat) pageSize.toNat + roundUp (ringMemOf flags sq cq).toNat pageSize.toNat, B,
      B + roundUp (64 * sq.toNat) pageSize.toNat⟩ : HugeLayout).Covers flags header sq.toNat cq.toNat := by
  have hsqe : kernelSqeSize flags = 128 := by simp [kernelSqeSize, h128]
  rw [covers_iff, roundUp_of_dvd hpos hdvd, hsqe]
  omega

/-- The request of `io_uring_queue_init_mem(128, ...)` on its first, IORING_SETUP_NO_SQARRAY attempt. -/
def initMemParams : IoUringParams := paramsOfFlags (IORING_SETUP_NO_MMAP ||| IORING_SETUP_NO_SQARRAY)

/-- The same under IORING_SETUP_SQE128. -/
def initMemParams128 : IoUringParams :=
  paramsOfFlags (IORING_SETUP_NO_MMAP ||| IORING_SETUP_NO_SQARRAY ||| IORING_SETUP_SQE128)

/-- The return value and the layout of an allocation in the buffer at `0x10000`. -/
def allocLayoutAt (entries : U32) (p : IoUringParams) (bufSize : U64) : Option (Int32 × HugeLayout) :=
  (ioUringAllocHuge entries p 4096 RingMem.zero 0x10000 bufSize ⟨[], [], []⟩).map
    fun ((ret, p', _), _) => (ret, layoutOf 0x10000 ret p')

theorem alloc_huge_misses_kernel_layout :
    (∀ (entries : U32) (p p' : IoUringParams) (pageSize buf bufSize : U64) (k : Nat) (m m' : RingMem) (s s' : Sys)
        (ret : Int32), pageSize.toNat = 2 ^ k → k ≤ 24 → buf ≠ 0 → buf.toNat + bufSize.toNat ≤ 2 ^ 64 →
      ioUringAllocHuge entries p pageSize m buf bufSize s = some ((ret, p', m'), s') → 0 ≤ ret →
      ∃ sq cq, getSqCqEntries entries p = .ok (sq, cq) ∧ ret.toInt ≤ bufSize.toNat ∧
        (hasFlag p.flags IORING_SETUP_SQE128 = false → (layoutOf buf ret p').Covers p.flags 0 sq.toNat cq.toNat) ∧
        (pageSize.toNat ∣ (ringMemOf p.flags sq cq).toNat →
          ∀ header, 0 < header → ¬ (layoutOf buf ret p').Covers p.flags header sq.toNat cq.toNat) ∧
        (hasFlag p.flags IORING_SETUP_SQE128 = true → pageSize.toNat ∣ 64 * sq.toNat →
          ∀ header, ¬ (layoutOf buf ret p').Covers p.flags header sq.toNat cq.toNat)) ∧
    allocLayoutAt 128 initMemParams 16384 = some (12288, ⟨0x10000, 12288, 0x10000, 0x12000⟩) ∧
    ¬ (⟨0x10000, 12288, 0x10000, 0x12000⟩ : HugeLayout).Covers initMemParams.flags 1 128 256 ∧
    allocLayoutAt 64 initMemParams128 8192 = some (8192, ⟨0x10000, 8192, 0x10000, 0x11000⟩) ∧
    ¬ (⟨0x10000, 8192, 0x10000, 0x11000⟩ : HugeLayout).Covers initMemParams128.flags 0 64 128 := by
  refine ⟨fun entries p p' pageSize buf bufSize k m m' s s' ret hk hk24 hbuf hend h hret => ?_,
    by decide, by decide, by decide, by decide⟩
  have hpos := pageSize_pos hk
  obtain ⟨sq, cq, hg, hl, hfit⟩ := allocHuge_buf_layout hk hk24 hbuf hend h hret
  obtain ⟨a, b, -, -, hsq, -⟩ := getSqCqEntries_pow hg
  have hsq1 : 0 < sq.toNat := hsq ▸ Nat.two_pow_pos a
  rw [hl]
  exact ⟨sq, cq, hg, hfit, covers_counted hpos _ _ sq cq, fun hdvd _ hh => misses_header hpos _ _ sq cq hdvd hh,
    fun h128 hdvd header => misses_sqe128 hpos _ _ sq cq h128 hdvd hsq1 header⟩

end Liburing
