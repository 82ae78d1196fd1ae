import Mathlib.Data.BitVec
import Mathlib.Tactic.Ring
import Liburing.Ring.Window
/-!
# Free-running ring counters

A ring of `2^k` entries is addressed by free-running `w`-bit counters that are only ever
incremented and compared by subtraction. The number of entries between two counters is their
difference read as a natural number, valid while they are less than one lap (`2^w`) apart, and
an entry lives in the slot `counter & (2^k - 1)`, possibly spread over `2^s` cells
(`(counter & mask) << s`, `cellOf`). Nothing here is specific to one ring.
-/
namespace SlotRing

variable {w : Nat}

/-- A counter lying between `b` and `a` splits their distance. -/
theorem toNat_sub_of_toNat_sub_le {a b c : BitVec w} (h : (c - b).toNat ≤ (a - b).toNat) :
    (a - c).toNat = (a - b).toNat - (c - b).toNat := by
  have e : a - c = (a - b) - (c - b) := by ring
  rw [e, BitVec.toNat_sub_of_le (by rw [BitVec.le_def]; exact h)]

theorem ofNat_toNat_sub_add (a b : BitVec w) : BitVec.ofNat w (b.toNat + (a - b).toNat) = a := by
  apply BitVec.eq_of_toNat_eq
  rw [BitVec.toNat_ofNat]
  have e : b + (a - b) = a := by ring
  rw [← e, BitVec.toNat_add]
  simp only [e]

/-- A counter's value is its distance from any other counter, added to that counter's value. -/
theorem toNat_eq_add_sub (a b : BitVec w) : a.toNat = (b.toNat + (a - b).toNat) % 2 ^ w := by
  rw [← BitVec.toNat_ofNat, ofNat_toNat_sub_add]

theorem toNat_add_ofNat (b : BitVec w) (k : Nat) :
    (b + BitVec.ofNat w k).toNat = (b.toNat + k) % 2 ^ w := by
  rw [BitVec.toNat_add, BitVec.toNat_ofNat, Nat.add_mod_mod]

theorem ofNat_toNat_add (b : BitVec w) (k : Nat) :
    BitVec.ofNat w (b.toNat + k) = b + BitVec.ofNat w k := by
  apply BitVec.eq_of_toNat_eq
  rw [toNat_add_ofNat, BitVec.toNat_ofNat]

/-- Advancing the leading counter by `k` lengthens the distance by `k`. -/
theorem toNat_add_sub {a b : BitVec w} {k : Nat} (h : (a - b).toNat + k < 2 ^ w) :
    (a + BitVec.ofNat w k - b).toNat = (a - b).toNat + k := by
  have e : a + BitVec.ofNat w k - b = (a - b) + BitVec.ofNat w k := by ring
  rw [e, toNat_add_ofNat, Nat.mod_eq_of_lt h]

/-- Advancing the trailing counter by `k` shortens the distance by `k`. -/
theorem toNat_sub_add {a b : BitVec w} {k : Nat} (h : k ≤ (a - b).toNat) :
    (a - (b + BitVec.ofNat w k)).toNat = (a - b).toNat - k := by
  have e : a - (b + BitVec.ofNat w k) = (a - b) - BitVec.ofNat w k := by ring
  have hk : (BitVec.ofNat w k).toNat = k := by
    rw [BitVec.toNat_ofNat, Nat.mod_eq_of_lt (Nat.lt_of_le_of_lt h (BitVec.isLt _))]
  rw [e, BitVec.toNat_sub_of_le (by rw [BitVec.le_def, hk]; exact h), hk]

theorem toNat_self_add_sub (b : BitVec w) {k : Nat} (h : k < 2 ^ w) :
    (b + BitVec.ofNat w k - b).toNat = k := by
  simpa using toNat_add_sub (a := b) (b := b) (k := k) (by simpa using h)

/-- Masking with `2^k - 1` reads the counter modulo `2^k`. -/
theorem toNat_and_mask (x : BitVec w) {k : Nat} (hk : k ≤ w) :
    (x &&& BitVec.ofNat w (2 ^ k - 1)).toNat = x.toNat % 2 ^ k := by
  have hlt : 2 ^ k - 1 < 2 ^ w := by
    have := Nat.pow_le_pow_right (by decide : 0 < 2) hk
    have := Nat.one_le_two_pow (n := k)
    omega
  rw [BitVec.toNat_and, BitVec.toNat_ofNat, Nat.mod_eq_of_lt hlt, Nat.and_two_pow_sub_one_eq_mod]

/-- The masked counter shifted left by `s`: entry `p % 2^k` of a ring whose entries span
`2^s` cells. -/
theorem toNat_and_mask_shiftLeft (x : BitVec w) {k s : Nat} (hks : k + s ≤ w) :
    ((x &&& BitVec.ofNat w (2 ^ k - 1)) <<< s).toNat = x.toNat % 2 ^ k * 2 ^ s := by
  rw [BitVec.toNat_shiftLeft, toNat_and_mask x (by omega), Nat.shiftLeft_eq]
  apply Nat.mod_eq_of_lt
  calc x.toNat % 2 ^ k * 2 ^ s < 2 ^ k * 2 ^ s :=
        Nat.mul_lt_mul_of_pos_right (Nat.mod_lt _ (Nat.two_pow_pos k)) (Nat.two_pow_pos s)
    _ = 2 ^ (k + s) := (Nat.pow_add 2 k s).symm
    _ ≤ 2 ^ w := Nat.pow_le_pow_right (by decide) hks

/-- Two counters share a shifted slot exactly when they agree modulo the ring size. -/
theorem and_mask_shiftLeft_eq_iff {k s : Nat} (hks : k + s ≤ w) (x y : BitVec w) :
    (x &&& BitVec.ofNat w (2 ^ k - 1)) <<< s = (y &&& BitVec.ofNat w (2 ^ k - 1)) <<< s ↔
      x.toNat % 2 ^ k = y.toNat % 2 ^ k := by
  rw [← BitVec.toNat_inj, toNat_and_mask_shiftLeft x hks, toNat_and_mask_shiftLeft y hks]
  exact Nat.mul_left_inj (Nat.two_pow_pos s).ne'

/-- A ring of fewer than `2^w` entries: its size as a counter is itself. -/
theorem toNat_ofNat_two_pow {k : Nat} (h : k < w) : (BitVec.ofNat w (2 ^ k)).toNat = 2 ^ k := by
  rw [BitVec.toNat_ofNat]
  exact Nat.mod_eq_of_lt (Nat.pow_lt_pow_right (by decide) h)

/-! ## The cell of a position -/

/-- The first cell of position `p` in a ring of `2^k` entries of `2^s` cells each, addressed
through a `w`-bit counter: `(p & (2^k - 1)) << s`. -/
def cellOf (w k s p : Nat) : BitVec w := (BitVec.ofNat w p &&& BitVec.ofNat w (2 ^ k - 1)) <<< s

theorem cellOf_toNat (k s : Nat) (x : BitVec w) :
    cellOf w k s x.toNat = (x &&& BitVec.ofNat w (2 ^ k - 1)) <<< s := by
  rw [cellOf, BitVec.ofNat_toNat, BitVec.setWidth_eq]

/-- A counter only sees positions modulo `2^w`. -/
theorem cellOf_mod (k s p : Nat) : cellOf w k s (p % 2 ^ w) = cellOf w k s p := by
  have e : BitVec.ofNat w (p % 2 ^ w) = BitVec.ofNat w p :=
    BitVec.eq_of_toNat_eq (by rw [BitVec.toNat_ofNat, BitVec.toNat_ofNat, Nat.mod_mod])
  rw [cellOf, cellOf, e]

/-- A counter's cell is the cell of its position counted from any other counter. -/
theorem cellOf_toNat_add_sub (k s : Nat) (a b : BitVec w) :
    cellOf w k s (b.toNat + (a - b).toNat) = cellOf w k s a.toNat := by
  rw [toNat_eq_add_sub a b, cellOf_mod]

section
variable {k s : Nat} (hks : k + s ≤ w)
include hks

/-- Two positions share a cell exactly when they agree modulo the ring size. -/
theorem cellOf_eq_iff (p q : Nat) : cellOf w k s p = cellOf w k s q ↔ p % 2 ^ k = q % 2 ^ k := by
  have hdvd : 2 ^ k ∣ 2 ^ w := Nat.pow_dvd_pow 2 (by omega)
  rw [cellOf, cellOf, and_mask_shiftLeft_eq_iff hks, BitVec.toNat_ofNat, BitVec.toNat_ofNat,
    Nat.mod_mod_of_dvd _ hdvd, Nat.mod_mod_of_dvd _ hdvd]

/-- Positions fewer than `2^k` apart use distinct cells. -/
theorem cellOf_ne {b i j : Nat} (hi : i < 2 ^ k) (hj : j < 2 ^ k) (hij : i ≠ j) :
    cellOf w k s (b + i) ≠ cellOf w k s (b + j) := fun e =>
  mod_ne_of_lt hi hj hij ((cellOf_eq_iff hks _ _).1 e)

end

end SlotRing
