import Liburing.HugeLayout
/-!
# Locked memory of a ring (setup.c:494-589)

| here | there |
| --- | --- |
| `KRING_SIZE`, `npages`, `ringsSize` | `KRING_SIZE`, `npages`, `rings_size` (`setup.c:494-526`) |
| `ioUringMlockSizeParams`, `ioUringMlockSize` | `io_uring_mlock_size_params`, `io_uring_mlock_size` (`setup.c:532-589`) |
| `mlock_size_params_exact` | the bytes `io_uring_mlock_size_params` reports, as pages of each part |

`rings_size` counts the CQ ring (its CQEs and a header of `KRING_SIZE` bytes, rounded up to 64)
and the SQEs, each in pages rounded up to a power of two. `npages` gets the exponent from the bit
length of `(size - 1) / page_size`, which is `Nat.clog 2` of the pages rounded up
(`npages_toNat`). On the sizes `get_sq_cq_entries` returns (`Entries.lean`), with a page of at
most `2 ^ 32` bytes, nothing wraps (`ringsSize_toNat`).
-/
set_option linter.style.nameCheck false

namespace Liburing

open PowTwo

/-! ## `io_uring_mlock_size` -/

/-- `KRING_SIZE`. -/
def KRING_SIZE : U64 := 320

/-- `npages`: `size--; size /= page_size; return __fls((int) size);`, the `int` returned as a
`size_t`. -/
def npages (size pageSize : U64) : U64 :=
  let size := size - 1
  let size := size / pageSize
  (__fls (Int32.ofBitVec (size.setWidth 32))).toBitVec.signExtend 64

/-- `rings_size`: the pages of the CQ ring with its header and of the SQEs, each rounded up to a
power of two, in bytes. -/
def ringsSize (p : IoUringParams) (entries cqEntries : U32) (pageSize : U64) : U64 :=
  let cqSize : U64 := 16
  let cqSize := if hasFlag p.flags IORING_SETUP_CQE32 then cqSize + 16 else cqSize
  let cqSize := cqSize * cqEntries.setWidth 64
  let cqSize := cqSize + KRING_SIZE
  let cqSize := (cqSize + 63) &&& ~~~63
  let pages := (1 : U64) <<< (npages cqSize pageSize).toNat
  let sqSize : U64 := 64
  let sqSize := if hasFlag p.flags IORING_SETUP_SQE128 then sqSize + 64 else sqSize
  let sqSize := sqSize * entries.setWidth 64
  let pages := pages + (1 : U64) <<< (npages sqSize pageSize).toNat
  pages * pageSize

/-- `io_uring_mlock_size_params`: 0 when a probe ring reports IORING_FEAT_NATIVE_WORKERS, else
the locked memory a ring of these sizes needs, or the error of the checks. -/
def ioUringMlockSizeParams (entries : U32) (p : IoUringParams) (pageSize : U64) : SysM Int64 := fun s =>
  -- the probe: `memset(&lp, 0, sizeof(lp))`, then `io_uring_queue_init_params`
  match ioUringQueueInitParams entries (paramsOfFlags 0) pageSize s with
  | none => none
  | some ((ret, lp, ring), s) =>
    let s := if ret = 0 then ioUringQueueExit ring s else s
    if hasFlag lp.features IORING_FEAT_NATIVE_WORKERS then some (0, s)
    else if entries = 0 then some ((-EINVAL).toInt64, s)
    else if entries > KERN_MAX_ENTRIES ∧ !hasFlag p.flags IORING_SETUP_CLAMP then some ((-EINVAL).toInt64, s)
    else
      let entries := if entries > KERN_MAX_ENTRIES then KERN_MAX_ENTRIES else entries
      match getSqCqEntries entries p with
      | .error cret => some (cret.toInt64, s)
      | .ok (sq, cqEntries) => some (Int64.ofBitVec (ringsSize p sq cqEntries pageSize), s)

/-- `io_uring_mlock_size`. -/
def ioUringMlockSize (entries flags : U32) (pageSize : U64) : SysM Int64 :=
  ioUringMlockSizeParams entries (paramsOfFlags flags) pageSize

/-- `npages` is the least `k` with `⌈size / page_size⌉ ≤ 2 ^ k`, for every size from 1 to `2 ^ 32`:
the page count goes through `size - 1`, the division rounds it down, and `__fls` of the `int`
cast is the bit length. -/
theorem npages_toNat (size pageSize : U64) (hpage : 0 < pageSize.toNat) (h1 : 1 ≤ size.toNat)
    (h2 : size.toNat ≤ 2 ^ 32) :
    (npages size pageSize).toNat = Nat.clog 2 (size.toNat ⌈/⌉ pageSize.toNat) := by
  have hlt : (size.toNat - 1) / pageSize.toNat < 2 ^ 32 := lt_of_le_of_lt (Nat.div_le_self _ _) (by omega)
  have hw : (((size - 1) / pageSize).setWidth 32).toNat = (size.toNat - 1) / pageSize.toNat := by
    rw [BitVec.toNat_setWidth, BitVec.toNat_udiv, AddrSpace.toNat_sub_one size h1, Nat.mod_eq_of_lt hlt]
  have hfls := fls_eq_size (((size - 1) / pageSize).setWidth 32)
  rw [hw] at hfls
  -- the count rounded down from `size - 1` is one less than the count rounded up
  have hsz : ((size.toNat - 1) / pageSize.toNat).size = Nat.clog 2 (size.toNat ⌈/⌉ pageSize.toNat) := by
    rw [← pred_div_add_one h1 hpage, ← size_pred_eq_clog (by omega), Nat.add_sub_cancel]
  have hsmall : 2 * (__fls (Int32.ofBitVec (((size - 1) / pageSize).setWidth 32))).toBitVec.toNat < 2 ^ 32 := by
    rw [hfls]
    have := Nat.size_le.2 hlt
    omega
  unfold npages
  dsimp only
  rw [toNat_signExtend_of_two_mul_lt _ hsmall (by omega), hfls, hsz]

/-- `(x + 63) & ~63UL` rounds up to a multiple of 64. -/
theorem align64_toNat (x : U64) (hx : x.toNat + 63 < 2 ^ 64) :
    ((x + 63) &&& ~~~63).toNat = AddrSpace.roundUp x.toNat 64 := by
  have h63 : (63 : U64).toNat = 63 := rfl
  rw [AddrSpace.and_not_low_toNat _ _ (k := 6) rfl, BitVec.toNat_add_of_lt (by rw [h63]; exact hx), h63,
    AddrSpace.roundUp, show x.toNat + 64 - 1 = x.toNat + 63 by omega]
  rfl

/-- `(size_t) 1 << k` for a shift below the width. -/
theorem one_shiftLeft_toNat {k : Nat} (hk : k < 64) : ((1 : U64) <<< k).toNat = 2 ^ k := by
  have h1 : (1 : U64).toNat = 1 := rfl
  rw [BitVec.toNat_shiftLeft, h1, Nat.shiftLeft_eq, Nat.one_mul,
    Nat.mod_eq_of_lt (Nat.pow_lt_pow_right (by decide) hk)]

/-- A page count rounded up to a power of two stays below a power of two the size is below. -/
theorem pow_clog_ceilDiv_le {n p k : Nat} (hp : 0 < p) (hn : n ≤ 2 ^ k) : 2 ^ Nat.clog 2 (n ⌈/⌉ p) ≤ 2 ^ k := by
  have hle : n ⌈/⌉ p ≤ n := (ceilDiv_le_iff_le_mul hp).2 (Nat.le_mul_of_pos_left n hp)
  exact Nat.pow_le_pow_right two_pos (Nat.clog_le_of_le_pow (le_trans hle hn))

/-- `pages * page_size` for two powers of two below `2 ^ 23` and a page of at most `2 ^ 32`
bytes: nothing wraps. -/
theorem pages_mul_toNat (x y pageSize : U64) (hx : 2 ^ x.toNat ≤ 2 ^ 22) (hy : 2 ^ y.toNat ≤ 2 ^ 22)
    (hpage : pageSize.toNat ≤ 2 ^ 32) :
    (((1 : U64) <<< x.toNat + (1 : U64) <<< y.toNat) * pageSize).toNat = pageSize.toNat * (2 ^ x.toNat + 2 ^ y.toNat) := by
  have hx64 : x.toNat < 64 := (Nat.pow_lt_pow_iff_right (by decide)).1 (lt_of_le_of_lt hx (by decide))
  have hy64 : y.toNat < 64 := (Nat.pow_lt_pow_iff_right (by decide)).1 (lt_of_le_of_lt hy (by decide))
  have hprod : (2 ^ x.toNat + 2 ^ y.toNat) * pageSize.toNat < 2 ^ 64 :=
    calc (2 ^ x.toNat + 2 ^ y.toNat) * pageSize.toNat ≤ (2 ^ 22 + 2 ^ 22) * 2 ^ 32 :=
          Nat.mul_le_mul (Nat.add_le_add hx hy) hpage
      _ < 2 ^ 64 := by decide
  rw [BitVec.toNat_mul, BitVec.toNat_add, one_shiftLeft_toNat hx64, one_shiftLeft_toNat hy64,
    Nat.mod_eq_of_lt (show 2 ^ x.toNat + 2 ^ y.toNat < 2 ^ 64 by omega), Nat.mod_eq_of_lt hprod, Nat.mul_comm]

/-- The size of an entry, doubled by its flag. -/
theorem entrySize_toNat (c : Bool) (k : U64) (hk : 2 * k.toNat < 2 ^ 64) :
    (if c = true then k + k else k).toNat = if c = true then 2 * k.toNat else k.toNat := by
  cases c
  · rfl
  · rw [if_pos rfl, if_pos rfl, BitVec.toNat_add_of_lt (by omega)]
    omega

/-- The bytes of the CQ ring `rings_size` counts, the CQEs and the `KRING_SIZE` header: nothing
wraps. -/
theorem cqRingBytes_toNat (p : IoUringParams) (cq : U32) (hcq : cq.toNat ≤ 65536) :
    ((if hasFlag p.flags IORING_SETUP_CQE32 = true then (16 : U64) + 16 else 16) * cq.setWidth 64 +
      KRING_SIZE).toNat = cq.toNat * kernelCqeSize p.flags + 320 := by
  have hcqe := entrySize_toNat (hasFlag p.flags IORING_SETUP_CQE32) 16 (by decide)
  have h16 : (16 : U64).toNat = 16 := rfl
  have hK : KRING_SIZE.toNat = 320 := rfl
  have hcqw : (cq.setWidth 64).toNat = cq.toNat := by rw [BitVec.toNat_setWidth]; omega
  rw [h16] at hcqe
  have hmul : ((if hasFlag p.flags IORING_SETUP_CQE32 = true then (16 : U64) + 16 else 16) *
      cq.setWidth 64).toNat = cq.toNat * kernelCqeSize p.flags := by
    rw [BitVec.toNat_mul_of_lt (by rw [hcqe, hcqw]; split <;> omega), hcqe, hcqw, kernelCqeSize]
    split <;> omega
  rw [BitVec.toNat_add_of_lt (by rw [hmul, hK, kernelCqeSize]; split <;> omega), hmul, hK]

/-- The bytes of the SQEs `rings_size` counts: nothing wraps. -/
theorem sqeBytes_toNat (p : IoUringParams) (sq : U32) (hsq : sq.toNat ≤ 32768) :
    ((if hasFlag p.flags IORING_SETUP_SQE128 = true then (64 : U64) + 64 else 64) * sq.setWidth 64).toNat =
      sq.toNat * kernelSqeSize p.flags := by
  have hsqe := entrySize_toNat (hasFlag p.flags IORING_SETUP_SQE128) 64 (by decide)
  have h64 : (64 : U64).toNat = 64 := rfl
  have hsqw : (sq.setWidth 64).toNat = sq.toNat := by rw [BitVec.toNat_setWidth]; omega
  rw [h64] at hsqe
  rw [BitVec.toNat_mul_of_lt (by rw [hsqe, hsqw]; split <;> omega), hsqe, hsqw, kernelSqeSize]
  split <;> omega

/-- The CQ ring of at most `KERN_MAX_CQ_ENTRIES` entries, rounded up to 64 bytes, is 1 to
`2 ^ 22` bytes. -/
theorem cqRingBytes_bounds (flags : U32) {cq : Nat} (hcq : cq ≤ 65536) :
    1 ≤ AddrSpace.roundUp (cq * kernelCqeSize flags + 320) 64 ∧
      AddrSpace.roundUp (cq * kernelCqeSize flags + 320) 64 ≤ 2 ^ 22 := by
  have he : cq * kernelCqeSize flags ≤ 65536 * 32 :=
    Nat.mul_le_mul hcq (by unfold kernelCqeSize; split <;> omega)
  have hle := AddrSpace.le_roundUp (cq * kernelCqeSize flags + 320) (g := 64) (by decide)
  have hlt := AddrSpace.roundUp_lt (cq * kernelCqeSize flags + 320) (g := 64) (by decide)
  omega

/-- The SQEs of 1 to `KERN_MAX_ENTRIES` entries are 1 to `2 ^ 22` bytes. -/
theorem sqeBytes_bounds (flags : U32) {sq : Nat} (hsq1 : 1 ≤ sq) (hsq : sq ≤ 32768) :
    1 ≤ sq * kernelSqeSize flags ∧ sq * kernelSqeSize flags ≤ 2 ^ 22 := by
  have hs : 64 ≤ kernelSqeSize flags ∧ kernelSqeSize flags ≤ 128 := by
    unfold kernelSqeSize
    split <;> omega
  constructor
  · exact le_trans hsq1 (Nat.le_mul_of_pos_right sq (by omega))
  · calc sq * kernelSqeSize flags ≤ 32768 * 128 := Nat.mul_le_mul hsq hs.2
      _ = 2 ^ 22 := by norm_num

/-- `rings_size` on sizes `get_sq_cq_entries` returns: the CQ ring with its header, rounded up
to 64 bytes, and the SQEs, each as pages rounded up to a power of two, in bytes. -/
theorem ringsSize_toNat (p : IoUringParams) (sq cq : U32) (pageSize : U64) (hsq1 : 1 ≤ sq.toNat)
    (hsq : sq.toNat ≤ 32768) (hcq : cq.toNat ≤ 65536) (hpage : 0 < pageSize.toNat) (hpage' : pageSize.toNat ≤ 2 ^ 32) :
    (ringsSize p sq cq pageSize).toNat =
      pageSize.toNat * (2 ^ Nat.clog 2 (AddrSpace.roundUp (cq.toNat * kernelCqeSize p.flags + 320) 64 ⌈/⌉ pageSize.toNat) +
        2 ^ Nat.clog 2 (sq.toNat * kernelSqeSize p.flags ⌈/⌉ pageSize.toNat)) := by
  have hC := cqRingBytes_toNat p cq hcq
  have hS := sqeBytes_toNat p sq hsq
  have hCb := cqRingBytes_bounds p.flags hcq
  have hSb := sqeBytes_bounds p.flags hsq1 hsq
  -- the CQ ring rounded up to 64 bytes
  have hA : (((if hasFlag p.flags IORING_SETUP_CQE32 = true then (16 : U64) + 16 else 16) * cq.setWidth 64 +
      KRING_SIZE + 63) &&& ~~~63).toNat = AddrSpace.roundUp (cq.toNat * kernelCqeSize p.flags + 320) 64 := by
    have hle := AddrSpace.le_roundUp (cq.toNat * kernelCqeSize p.flags + 320) (g := 64) (by decide)
    rw [align64_toNat _ (by rw [hC]; omega), hC]
  -- each part in pages, rounded up to a power of two
  have ha := npages_toNat _ pageSize hpage (hA ▸ hCb.1) (by rw [hA]; omega)
  have hb := npages_toNat _ pageSize hpage (hS ▸ hSb.1) (by rw [hS]; omega)
  rw [hA] at ha
  rw [hS] at hb
  unfold ringsSize
  dsimp only
  rw [pages_mul_toNat _ _ _ (ha ▸ pow_clog_ceilDiv_le hpage hCb.2) (hb ▸ pow_clog_ceilDiv_le hpage hSb.2) hpage',
    ha, hb]

/-- `io_uring_mlock_size_params` clamps the request itself before `get_sq_cq_entries`, which
clamps it again: once the checks passed, the second clamp changes nothing. -/
theorem getSqCqEntries_clamp {entries : U32} (p : IoUringParams)
    (h1 : ¬(entries > KERN_MAX_ENTRIES ∧ !hasFlag p.flags IORING_SETUP_CLAMP)) :
    getSqCqEntries (if entries > KERN_MAX_ENTRIES then KERN_MAX_ENTRIES else entries) p = getSqCqEntries entries p := by
  have hK : KERN_MAX_ENTRIES.toNat = 32768 := rfl
  have hd := clamp_toNat entries KERN_MAX_ENTRIES
  have hle : ¬(if entries > KERN_MAX_ENTRIES then KERN_MAX_ENTRIES else entries) > KERN_MAX_ENTRIES := by
    rw [gt_iff_lt, BitVec.lt_def, hd]
    omega
  have h0 : (if entries > KERN_MAX_ENTRIES then KERN_MAX_ENTRIES else entries) ≠ 0 ↔ entries ≠ 0 := by
    constructor
    · rintro h0 rfl
      exact h0 (by decide)
    · intro h0 hc
      have hz : (0 : U32).toNat = 0 := rfl
      rw [hc, hz] at hd
      exact h0 (BitVec.eq_of_toNat_eq (by rw [hz]; omega))
  rw [getSqCqEntries_eq, getSqCqEntries_eq, if_neg hle]
  refine if_congr ⟨fun ⟨hne, _, h2⟩ => ⟨h0.1 hne, h1, h2⟩, fun ⟨hne, _, h2⟩ => ⟨h0.2 hne, fun h => hle h.1, h2⟩⟩
    rfl rfl

theorem mlock_size_params_exact {entries : U32} {p : IoUringParams} {pageSize : U64} {s : Sys} {sq cq : U32}
    (hpage : 0 < pageSize.toNat) (hpage' : pageSize.toNat ≤ 2 ^ 32)
    (hprobe : (ioUringQueueInitParams entries (paramsOfFlags 0) pageSize s).map
      (fun r => hasFlag r.1.2.1.features IORING_FEAT_NATIVE_WORKERS) = some false)
    (hget : getSqCqEntries entries p = .ok (sq, cq)) :
    (∀ size : U64, 1 ≤ size.toNat → size.toNat ≤ 2 ^ 32 →
      (npages size pageSize).toNat = Nat.clog 2 (size.toNat ⌈/⌉ pageSize.toNat)) ∧
    ∃ (r : Int64) (s' : Sys) (n : Nat), ioUringMlockSizeParams entries p pageSize s = some (r, s') ∧ r.toInt = n ∧
      n = pageSize.toNat * (2 ^ Nat.clog 2 (AddrSpace.roundUp
          (cq.toNat * (if hasFlag p.flags IORING_SETUP_CQE32 then 32 else 16) + 320) 64 ⌈/⌉ pageSize.toNat) +
        2 ^ Nat.clog 2 (sq.toNat * (if hasFlag p.flags IORING_SETUP_SQE128 then 128 else 64) ⌈/⌉ pageSize.toNat)) ∧
      pageSize.toNat ∣ n ∧ 0 < n ∧
      AddrSpace.roundUp (cq.toNat * (if hasFlag p.flags IORING_SETUP_CQE32 then 32 else 16) + 320) 64 +
        sq.toNat * (if hasFlag p.flags IORING_SETUP_SQE128 then 128 else 64) ≤ n := by
  refine ⟨fun size h1 h2 => npages_toNat size pageSize hpage h1 h2, ?_⟩
  obtain ⟨h0, h1⟩ := getSqCqEntries_ok_checks hget
  obtain ⟨hsq1, hsq, ⟨b, hb, hcqpow⟩, -, -⟩ := getSqCqEntries_bounds hget
  have hcq : cq.toNat ≤ 65536 := hcqpow ▸ Nat.pow_le_pow_right two_pos hb
  have hrings := ringsSize_toNat p sq cq pageSize hsq1 hsq hcq hpage hpage'
  -- the probe ring answered without IORING_FEAT_NATIVE_WORKERS
  cases hq : ioUringQueueInitParams entries (paramsOfFlags 0) pageSize s with
  | none =>
    rw [hq] at hprobe
    cases hprobe
  | some r =>
    obtain ⟨⟨ret, lp, ring⟩, s1⟩ := r
    have hn : hasFlag lp.features IORING_FEAT_NATIVE_WORKERS = false := by
      rw [hq] at hprobe
      simpa using hprobe
    have hrun : ioUringMlockSizeParams entries p pageSize s =
        some (Int64.ofBitVec (ringsSize p sq cq pageSize), if ret = 0 then ioUringQueueExit ring s1 else s1) := by
      unfold ioUringMlockSizeParams
      rw [hq]
      dsimp only
      rw [if_neg (by simp [hn]), if_neg h0, if_neg h1, getSqCqEntries_clamp p h1, hget]
    -- the two parts, each covering its bytes
    have hC := le_mul_pow_clog_ceilDiv
      (AddrSpace.roundUp (cq.toNat * (if hasFlag p.flags IORING_SETUP_CQE32 then 32 else 16) + 320) 64) hpage
    have hS := le_mul_pow_clog_ceilDiv
      (sq.toNat * (if hasFlag p.flags IORING_SETUP_SQE128 then 128 else 64)) hpage
    have hsmall : 2 * (ringsSize p sq cq pageSize).toNat < 2 ^ 64 := by
      rw [hrings]
      have hA := pow_clog_ceilDiv_le hpage (cqRingBytes_bounds p.flags hcq).2
      have hB := pow_clog_ceilDiv_le hpage (sqeBytes_bounds p.flags hsq1 hsq).2
      calc 2 * (pageSize.toNat * (_ + _)) ≤ 2 * (2 ^ 32 * (2 ^ 22 + 2 ^ 22)) :=
            Nat.mul_le_mul_left 2 (Nat.mul_le_mul hpage' (Nat.add_le_add hA hB))
        _ < 2 ^ 64 := by decide
    refine ⟨_, _, (ringsSize p sq cq pageSize).toNat, hrun, ?_, hrings, ⟨_, hrings⟩, ?_, ?_⟩
    · rw [Int64.toInt_ofBitVec, BitVec.toInt_eq_toNat_of_lt hsmall]
    · rw [hrings]
      exact Nat.mul_pos hpage (Nat.add_pos_left (Nat.two_pow_pos _) _)
    · rw [hrings, Nat.mul_add]
      exact Nat.add_le_add hC hS

/-- A kernel out of memlock space refuses the probe ring with `-ENOMEM`. -/
def envMemlockExhausted : Sys := ⟨[], [⟨-ENOMEM, 0, 0, 0, 0, 0⟩], []⟩

theorem mlock_size_two_entries :
    0 < (4096 : U64).toNat ∧ (4096 : U64).toNat ≤ 2 ^ 32 ∧
    (ioUringQueueInitParams 2 (paramsOfFlags 0) 4096 envMemlockExhausted).map
      (fun r => hasFlag r.1.2.1.features IORING_FEAT_NATIVE_WORKERS) = some false ∧
    getSqCqEntries 2 (paramsOfFlags 0) = .ok (2, 4) ∧
    ∃ r s', ioUringMlockSizeParams 2 (paramsOfFlags 0) 4096 envMemlockExhausted = some (r, s') ∧ r.toInt = 8192 := by
  have h1 : 0 < (4096 : U64).toNat := by decide
  have h2 : (4096 : U64).toNat ≤ 2 ^ 32 := by decide
  have h3 : (ioUringQueueInitParams 2 (paramsOfFlags 0) 4096 envMemlockExhausted).map
      (fun r => hasFlag r.1.2.1.features IORING_FEAT_NATIVE_WORKERS) = some false := by decide
  have h4 : getSqCqEntries 2 (paramsOfFlags 0) = .ok (2, 4) := by decide
  obtain ⟨-, r, s', n, hrun, hr, hn, -⟩ := mlock_size_params_exact h1 h2 h3 h4
  refine ⟨h1, h2, h3, h4, r, s', hrun, ?_⟩
  rw [hr, hn]
  decide

end Liburing
