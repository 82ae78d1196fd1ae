import Liburing.Setup
import Liburing.Bits.Pow2
import Liburing.Ring.Counter
/-!
# Queue depths (setup.c:15-60)

| here | there |
| --- | --- |
| `fls_eq_size`, `roundupPow2_toNat` | `__fls` is the bit length, `roundup_pow2` the least power of two above |
| `getSqCqEntries_eq` | what `get_sq_cq_entries` returns, in one `if` |
| `getSqCqEntries_ok`, `getSqCqEntries_bounds` | the sizes of a successful call |
| `get_sq_cq_entries_spec` | the sizes are the powers of two the kernel would pick |

`roundup_pow2` rounds through the bit length of `depth - 1`: `__fls` is `8 * sizeof(int)`
minus the leading zeros. For a depth `d` in `[1, 2 ^ 31]` it is the least power of two
`≥ d`, that is `2 ^ Nat.clog 2 d` (`roundupPow2_toNat`). `get_sq_cq_entries` calls it only on
depths it has already checked to be nonzero and clamped to at most `KERN_MAX_CQ_ENTRIES`, so
the shift stays below 32.
-/
set_option linter.style.nameCheck false

namespace Liburing

open PowTwo

/-! ## `__fls` and `roundup_pow2` exactly -/

/-- The leading zeros among the low `i` bits and the bit length of those bits add up to `i`. -/
theorem clzFrom_add_size (x : U32) : ∀ i, clzFrom x i + (x.toNat % 2 ^ i).size = i
  | 0 => by simp only [clzFrom, Nat.pow_zero, Nat.mod_one, Nat.size_zero]
  | i + 1 => by
    have ih := clzFrom_add_size x i
    rw [size_mod_two_pow_succ, clzFrom, ← BitVec.testBit_toNat]
    cases x.toNat.testBit i <;> simp only [Bool.false_eq_true, if_false, if_true] <;> omega

/-- `__fls` of a 32-bit value is its bit length, also when the `int` is negative. -/
theorem fls_eq_size (x : U32) : (__fls (Int32.ofBitVec x)).toBitVec.toNat = x.toNat.size := by
  unfold __fls
  split
  · rename_i h
    have hx : x = 0 := by simpa using congrArg Int32.toBitVec h
    simp [hx]
  · have h := clzFrom_add_size x 32
    rw [Nat.mod_eq_of_lt x.isLt] at h
    rw [Int32.toBitVec_ofNat', BitVec.toNat_ofNat, Nat.mod_eq_of_lt (by omega)]
    simp only [Int32.toBitVec_ofBitVec, __builtinClz]
    omega

/-- The shift of `roundup_pow2 d` is the least `k` with `d ≤ 2 ^ k`. -/
theorem roundupPow2_shift (d : U32) (hd : 1 ≤ d.toNat) :
    (__fls (Int32.ofBitVec (d - 1))).toBitVec.toNat = Nat.clog 2 d.toNat := by
  rw [fls_eq_size, AddrSpace.toNat_sub_one d hd, size_pred_eq_clog hd]

/-- For a depth in `[1, 2 ^ 31]`, `roundup_pow2` is the least power of two at least the depth. -/
theorem roundupPow2_toNat (d : U32) (hd : 1 ≤ d.toNat) (hd' : d.toNat ≤ 2 ^ 31) :
    (roundupPow2 d).toNat = 2 ^ Nat.clog 2 d.toNat := by
  have hlt : 2 ^ Nat.clog 2 d.toNat < 2 ^ 32 :=
    lt_of_le_of_lt (Nat.pow_le_pow_right two_pos (Nat.clog_le_of_le_pow hd')) (by decide)
  unfold roundupPow2
  rw [roundupPow2_shift d hd, BitVec.natCast_eq_ofNat, BitVec.toNat_ofNat, Nat.shiftLeft_eq, Nat.one_mul,
    Nat.mod_eq_of_lt hlt]

/-- The clamp of `get_sq_cq_entries`: `if (x > max) x = max;`. -/
theorem clamp_toNat (x max : U32) : (if x > max then max else x).toNat = min x.toNat max.toNat := by
  split
  · rename_i h
    rw [gt_iff_lt, BitVec.lt_def] at h
    omega
  · rename_i h
    rw [gt_iff_lt, BitVec.lt_def] at h
    omega

/-- The check before each clamp: a size over the maximum is an error unless IORING_SETUP_CLAMP. -/
theorem not_over_iff (x max : U32) (clamp : Bool) :
    ¬(x > max ∧ !clamp) ↔ x.toNat ≤ max.toNat ∨ clamp = true := by
  rw [gt_iff_lt, BitVec.lt_def]
  cases clamp <;> simp

/-- A mask `m - 1` of a power of two `m` reduces modulo `m`. -/
theorem toNat_and_pred_of_pow (x m : U32) {a : Nat} (hm : m.toNat = 2 ^ a) (ha : a ≤ 32) :
    (x &&& (m - 1)).toNat = x.toNat % m.toNat := by
  have hlt : 2 ^ a - 1 < 2 ^ 32 := by
    have := Nat.pow_le_pow_right two_pos ha
    omega
  have e : m - 1 = BitVec.ofNat 32 (2 ^ a - 1) := by
    apply BitVec.eq_of_toNat_eq
    rw [AddrSpace.toNat_sub_one m (by rw [hm]; exact Nat.one_le_two_pow), hm, BitVec.toNat_ofNat,
      Nat.mod_eq_of_lt hlt]
  rw [e, SlotRing.toNat_and_mask x ha, hm]

/-! ## `get_sq_cq_entries` -/

/-- `get_sq_cq_entries` in one `if`: the checks in the order the code makes them, and the two
sizes. -/
theorem getSqCqEntries_eq (entries : U32) (p : IoUringParams) :
    getSqCqEntries entries p =
      if entries ≠ 0 ∧ ¬(entries > KERN_MAX_ENTRIES ∧ !hasFlag p.flags IORING_SETUP_CLAMP) ∧
          (hasFlag p.flags IORING_SETUP_CQSIZE = true → p.cqEntries ≠ 0 ∧
            ¬(p.cqEntries > KERN_MAX_CQ_ENTRIES ∧ !hasFlag p.flags IORING_SETUP_CLAMP) ∧
            ¬roundupPow2 (if p.cqEntries > KERN_MAX_CQ_ENTRIES then KERN_MAX_CQ_ENTRIES else p.cqEntries) <
              roundupPow2 (if entries > KERN_MAX_ENTRIES then KERN_MAX_ENTRIES else entries))
      then .ok (roundupPow2 (if entries > KERN_MAX_ENTRIES then KERN_MAX_ENTRIES else entries),
        if hasFlag p.flags IORING_SETUP_CQSIZE then
          roundupPow2 (if p.cqEntries > KERN_MAX_CQ_ENTRIES then KERN_MAX_CQ_ENTRIES else p.cqEntries)
        else 2 * roundupPow2 (if entries > KERN_MAX_ENTRIES then KERN_MAX_ENTRIES else entries))
      else .error (-EINVAL) := by
  unfold getSqCqEntries
  dsimp only
  by_cases h0 : entries = 0
  · rw [if_pos h0, if_neg (fun h => h.1 h0)]
  rw [if_neg h0]
  by_cases h1 : entries > KERN_MAX_ENTRIES ∧ !hasFlag p.flags IORING_SETUP_CLAMP
  · rw [if_pos h1, if_neg (fun h => h.2.1 h1)]
  rw [if_neg h1]
  generalize roundupPow2 (if entries > KERN_MAX_ENTRIES then KERN_MAX_ENTRIES else entries) = sq
  generalize roundupPow2 (if p.cqEntries > KERN_MAX_CQ_ENTRIES then KERN_MAX_CQ_ENTRIES else p.cqEntries) = cq
  by_cases h2 : hasFlag p.flags IORING_SETUP_CQSIZE = true
  · rw [if_pos h2, if_pos h2]
    -- the CQ size is checked the same way, then against the SQ size
    by_cases h3 : p.cqEntries = 0
    · rw [if_pos h3, if_neg (fun h => (h.2.2 h2).1 h3)]
    rw [if_neg h3]
    by_cases h4 : p.cqEntries > KERN_MAX_CQ_ENTRIES ∧ !hasFlag p.flags IORING_SETUP_CLAMP
    · rw [if_pos h4, if_neg (fun h => (h.2.2 h2).2.1 h4)]
    rw [if_neg h4]
    by_cases h5 : cq < sq
    · rw [if_pos h5, if_neg (fun h => (h.2.2 h2).2.2 h5)]
    · rw [if_neg h5, if_pos ⟨h0, h1, fun _ => ⟨h3, h4, h5⟩⟩]
  · rw [if_neg h2, if_pos ⟨h0, h1, fun h => absurd h h2⟩, if_neg h2]

/-- A clamped request that is not zero is rounded to the least power of two at least it. -/
theorem roundupPow2_clamp_toNat (x max : U32) (hx : x ≠ 0) (hmax : 1 ≤ max.toNat) (hmax' : max.toNat ≤ 2 ^ 31) :
    (roundupPow2 (if x > max then max else x)).toNat = 2 ^ Nat.clog 2 (min x.toNat max.toNat) := by
  have hx1 : 1 ≤ x.toNat := Nat.one_le_iff_ne_zero.2 fun h => hx (BitVec.eq_of_toNat_eq (by simpa using h))
  rw [roundupPow2_toNat _ (by rw [clamp_toNat]; omega) (by rw [clamp_toNat]; omega), clamp_toNat]

/-- What a successful `get_sq_cq_entries` returns: the SQ request rounded up, and the CQ
request rounded up under IORING_SETUP_CQSIZE, at least the SQ size, or twice the SQ size. -/
theorem getSqCqEntries_ok {entries : U32} {p : IoUringParams} {sq cq : U32}
    (h : getSqCqEntries entries p = .ok (sq, cq)) :
    entries ≠ 0 ∧ sq.toNat = 2 ^ Nat.clog 2 (min entries.toNat 32768) ∧
      (hasFlag p.flags IORING_SETUP_CQSIZE = true → p.cqEntries ≠ 0 ∧
        cq.toNat = 2 ^ Nat.clog 2 (min p.cqEntries.toNat 65536) ∧ sq.toNat ≤ cq.toNat) ∧
      (hasFlag p.flags IORING_SETUP_CQSIZE = false → cq = 2 * sq) := by
  rw [getSqCqEntries_eq] at h
  rcases ite_eq_iff.1 h with ⟨⟨h0, -, h2⟩, h⟩ | ⟨-, h⟩
  · obtain ⟨rfl, rfl⟩ := Prod.mk.inj (Except.ok.inj h)
    refine ⟨h0, roundupPow2_clamp_toNat _ _ h0 (by decide) (by decide), fun hq => ?_, fun hq => ?_⟩
    · obtain ⟨h3, -, h5⟩ := h2 hq
      rw [if_pos hq]
      rw [BitVec.lt_def] at h5
      exact ⟨h3, roundupPow2_clamp_toNat _ _ h3 (by decide) (by decide), by omega⟩
    · rw [if_neg (by simp [hq])]
  · cases h

/-- A power of two rounded up from at most `2 ^ k` is at most `2 ^ k`. -/
theorem pow_clog_min_le (n : Nat) {m k : Nat} (hm : m ≤ 2 ^ k) : 2 ^ Nat.clog 2 (min n m) ≤ 2 ^ k :=
  Nat.pow_le_pow_right two_pos (Nat.clog_le_of_le_pow (le_trans (min_le_right n m) hm))

/-- The checks a successful `get_sq_cq_entries` passed on the SQ request. -/
theorem getSqCqEntries_ok_checks {entries : U32} {p : IoUringParams} {x : U32 × U32}
    (h : getSqCqEntries entries p = .ok x) :
    entries ≠ 0 ∧ ¬(entries > KERN_MAX_ENTRIES ∧ !hasFlag p.flags IORING_SETUP_CLAMP) := by
  rw [getSqCqEntries_eq] at h
  rcases ite_eq_iff.1 h with ⟨⟨h0, h1, -⟩, -⟩ | ⟨-, h⟩
  · exact ⟨h0, h1⟩
  · cases h

/-- The sizes of a successful `get_sq_cq_entries`: an SQ of 1 to `KERN_MAX_ENTRIES` entries, and a
CQ of a power of two up to `KERN_MAX_CQ_ENTRIES` entries, at least the SQ's. -/
theorem getSqCqEntries_bounds {entries : U32} {p : IoUringParams} {sq cq : U32}
    (h : getSqCqEntries entries p = .ok (sq, cq)) :
    1 ≤ sq.toNat ∧ sq.toNat ≤ 32768 ∧ (∃ b, b ≤ 16 ∧ cq.toNat = 2 ^ b) ∧ sq.toNat ≤ cq.toNat ∧
      (hasFlag p.flags IORING_SETUP_CQSIZE = false → cq.toNat = 2 * sq.toNat) := by
  obtain ⟨-, hsq, hcqsize, hdouble⟩ := getSqCqEntries_ok h
  have hsq1 : 1 ≤ sq.toNat := hsq ▸ Nat.one_le_two_pow
  have hsq_le : sq.toNat ≤ 32768 := hsq ▸ pow_clog_min_le _ (k := 15) (by decide)
  refine ⟨hsq1, hsq_le, ?_⟩
  cases hq : hasFlag p.flags IORING_SETUP_CQSIZE
  · -- twice the SQ size, which does not wrap
    have h2 : (2 : U32).toNat = 2 := rfl
    have hcq2 : cq.toNat = 2 * sq.toNat := by
      rw [hdouble hq, BitVec.toNat_mul, h2, Nat.mod_eq_of_lt (by omega)]
    refine ⟨⟨Nat.clog 2 (min entries.toNat 32768) + 1, ?_, ?_⟩, by omega, fun _ => hcq2⟩
    · exact Nat.succ_le_succ (Nat.clog_le_of_le_pow (le_trans (min_le_right _ _) (by decide)))
    · rw [hcq2, hsq, Nat.pow_succ, Nat.mul_comm]
  · obtain ⟨-, hcq, hle⟩ := hcqsize hq
    exact ⟨⟨_, Nat.clog_le_of_le_pow (le_trans (min_le_right _ _) (by decide)), hcq⟩, hle,
      fun h => absurd h (by simp)⟩

/-- The sizes `get_sq_cq_entries` returns are powers of two, at most `KERN_MAX_ENTRIES` and
`KERN_MAX_CQ_ENTRIES`. -/
theorem getSqCqEntries_pow {entries : U32} {p : IoUringParams} {sq cq : U32}
    (h : getSqCqEntries entries p = .ok (sq, cq)) :
    ∃ a b, a ≤ 15 ∧ b ≤ 16 ∧ sq.toNat = 2 ^ a ∧ cq.toNat = 2 ^ b := by
  obtain ⟨-, hsq, -, -⟩ := getSqCqEntries_ok h
  obtain ⟨-, -, ⟨b, hb, hcq⟩, -, -⟩ := getSqCqEntries_bounds h
  exact ⟨_, b, Nat.clog_le_of_le_pow (le_trans (min_le_right _ _) (by decide)), hb, hsq, hcq⟩

theorem get_sq_cq_entries_spec (entries : U32) (p : IoUringParams) :
    ((∃ sq cq, getSqCqEntries entries p = .ok (sq, cq)) ↔
      entries ≠ 0 ∧ (entries.toNat ≤ 32768 ∨ hasFlag p.flags IORING_SETUP_CLAMP = true) ∧
        (hasFlag p.flags IORING_SETUP_CQSIZE = true → p.cqEntries ≠ 0 ∧
          (p.cqEntries.toNat ≤ 65536 ∨ hasFlag p.flags IORING_SETUP_CLAMP = true) ∧
          2 ^ Nat.clog 2 (min entries.toNat 32768) ≤ 2 ^ Nat.clog 2 (min p.cqEntries.toNat 65536))) ∧
    (∀ sq cq, getSqCqEntries entries p = .ok (sq, cq) →
      IsLeast {n | (∃ k, n = 2 ^ k) ∧ min entries.toNat 32768 ≤ n} sq.toNat ∧
      (hasFlag p.flags IORING_SETUP_CQSIZE = true →
        IsLeast {n | (∃ k, n = 2 ^ k) ∧ min p.cqEntries.toNat 65536 ≤ n} cq.toNat) ∧
      (hasFlag p.flags IORING_SETUP_CQSIZE = false → cq.toNat = 2 * sq.toNat) ∧
      (∃ a, sq.toNat = 2 ^ a) ∧ (∃ b, cq.toNat = 2 ^ b) ∧
      sq.toNat ≤ 32768 ∧ cq.toNat ≤ 65536 ∧ sq.toNat ≤ cq.toNat ∧
      (∀ i : U32, (i &&& (sq - 1)).toNat = i.toNat % sq.toNat) ∧
      (∀ i : U32, (i &&& (cq - 1)).toNat = i.toNat % cq.toNat)) ∧
    (∀ x max : U32, x ≠ 0 → (max = KERN_MAX_ENTRIES ∨ max = KERN_MAX_CQ_ENTRIES) →
      (if x > max then max else x) ≠ 0 ∧
        (__fls (Int32.ofBitVec ((if x > max then max else x) - 1))).toBitVec.toNat < 32) := by
  have hK : KERN_MAX_ENTRIES.toNat = 32768 := rfl
  have hKC : KERN_MAX_CQ_ENTRIES.toNat = 65536 := rfl
  refine ⟨?_, fun sq cq h => ?_, fun x max hx hmax => ?_⟩
  · -- accepted exactly when every check passes, read on the naturals
    have hround : entries ≠ 0 → p.cqEntries ≠ 0 →
        (¬roundupPow2 (if p.cqEntries > KERN_MAX_CQ_ENTRIES then KERN_MAX_CQ_ENTRIES else p.cqEntries) <
            roundupPow2 (if entries > KERN_MAX_ENTRIES then KERN_MAX_ENTRIES else entries) ↔
          2 ^ Nat.clog 2 (min entries.toNat 32768) ≤ 2 ^ Nat.clog 2 (min p.cqEntries.toNat 65536)) := by
      intro h0 h3
      rw [BitVec.lt_def, roundupPow2_clamp_toNat _ _ h0 (by decide) (by decide),
        roundupPow2_clamp_toNat _ _ h3 (by decide) (by decide), hK, hKC]
      omega
    constructor
    · rintro ⟨sq, cq, h⟩
      rw [getSqCqEntries_eq] at h
      rcases ite_eq_iff.1 h with ⟨⟨h0, h1, h2⟩, -⟩ | ⟨-, h⟩
      · refine ⟨h0, (not_over_iff _ _ _).1 h1, fun hq => ?_⟩
        obtain ⟨h3, h4, h5⟩ := h2 hq
        exact ⟨h3, (not_over_iff _ _ _).1 h4, (hround h0 h3).1 h5⟩
      · cases h
    · rintro ⟨h0, h1, h2⟩
      refine ⟨_, _, (getSqCqEntries_eq entries p).trans (if_pos ⟨h0, (not_over_iff _ _ _).2 h1, fun hq => ?_⟩)⟩
      obtain ⟨h3, h4, h5⟩ := h2 hq
      exact ⟨h3, (not_over_iff _ _ _).2 h4, (hround h0 h3).2 h5⟩
  · obtain ⟨-, hsq, hcqsize, -⟩ := getSqCqEntries_ok h
    obtain ⟨-, hsq_le, ⟨b, hb, hcqpow⟩, hle, hcq2⟩ := getSqCqEntries_bounds h
    have hsq_pow : Nat.clog 2 (min entries.toNat 32768) ≤ 32 :=
      Nat.clog_le_of_le_pow (le_trans (min_le_right _ _) (by decide))
    refine ⟨hsq ▸ isLeast_pow_clog _, fun hq => (hcqsize hq).2.1 ▸ isLeast_pow_clog _, hcq2, ⟨_, hsq⟩,
      ⟨b, hcqpow⟩, hsq_le, ?_, hle, fun i => toNat_and_pred_of_pow i sq hsq hsq_pow,
      fun i => toNat_and_pred_of_pow i cq hcqpow (by omega)⟩
    rw [hcqpow]
    exact Nat.pow_le_pow_right two_pos hb
  · -- the depths `roundup_pow2` sees are in `[1, KERN_MAX_CQ_ENTRIES]`
    have hmax1 : 1 ≤ max.toNat ∧ max.toNat ≤ 65536 := by
      rcases hmax with rfl | rfl <;> decide
    have hd := clamp_toNat x max
    have hx1 : 1 ≤ x.toNat := Nat.one_le_iff_ne_zero.2 fun h => hx (BitVec.eq_of_toNat_eq (by simpa using h))
    refine ⟨fun h => by rw [h] at hd; simp at hd; omega, ?_⟩
    rw [roundupPow2_shift _ (by omega), hd]
    have : Nat.clog 2 (min x.toNat max.toNat) ≤ 16 := Nat.clog_le_of_le_pow (by simp; omega)
    omega

end Liburing
