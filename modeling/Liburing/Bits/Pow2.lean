import Mathlib.Data.Nat.Log
import Mathlib.Data.Nat.Size
import Mathlib.Algebra.Order.Floor.Div
/-!
# Bit lengths, powers of two and division rounded up

| here | what it is |
| --- | --- |
| `Nat.size n` | the bit length of `n`, what `8 * sizeof(x) - __builtin_clz(x)` computes |
| `Nat.clog 2 n` | the least `k` with `n ≤ 2 ^ k` |
| `n ⌈/⌉ p` | `n / p` rounded up |

C code rounds to powers of two through the bit length of `n - 1`, and counts pages through
`(n - 1) / p`. The lemmas below connect these to `Nat.clog` and `⌈/⌉`, where the bounds are
simple. -/

namespace PowTwo

/-- The bit length of `n - 1` is the least `k` with `n ≤ 2 ^ k`. -/
theorem size_pred_eq_clog {n : Nat} (hn : 1 ≤ n) : (n - 1).size = Nat.clog 2 n := by
  apply le_antisymm
  · rw [Nat.size_le]
    have := Nat.le_pow_clog one_lt_two n
    omega
  · apply Nat.clog_le_of_le_pow
    have := Nat.lt_size_self (n - 1)
    omega

/-- `2 ^ clog 2 n` is the least power of two that is at least `n`. -/
theorem isLeast_pow_clog (n : Nat) : IsLeast {m | (∃ k, m = 2 ^ k) ∧ n ≤ m} (2 ^ Nat.clog 2 n) := by
  refine ⟨⟨⟨_, rfl⟩, Nat.le_pow_clog one_lt_two n⟩, ?_⟩
  rintro m ⟨⟨k, rfl⟩, hm⟩
  exact Nat.pow_le_pow_right two_pos (Nat.clog_le_of_le_pow hm)

/-- The bits of `x` below `i + 1` have bit length `i + 1` when bit `i` is set, and otherwise
the bit length of the bits below `i`. -/
theorem size_mod_two_pow_succ (x i : Nat) :
    (x % 2 ^ (i + 1)).size = if x.testBit i then i + 1 else (x % 2 ^ i).size := by
  have hsplit : x % 2 ^ (i + 1) = x % 2 ^ i + 2 ^ i * (x / 2 ^ i % 2) := Nat.mod_pow_succ
  have hlow : x % 2 ^ i < 2 ^ i := Nat.mod_lt _ (Nat.two_pow_pos i)
  rw [Nat.testBit_eq_decide_div_mod_eq]
  by_cases hb : x / 2 ^ i % 2 = 1
  · rw [if_pos (decide_eq_true hb), hsplit, hb]
    apply le_antisymm
    · rw [Nat.size_le, Nat.pow_succ]
      omega
    · rw [Nat.succ_le_iff, Nat.lt_size]
      omega
  · have hb0 : x / 2 ^ i % 2 = 0 := by omega
    rw [if_neg (by simpa using hb), hsplit, hb0, Nat.mul_zero, Nat.add_zero]

/-- A positive `n` is `(n - 1) / p + 1` pages of `p`, rounded up. -/
theorem pred_div_add_one {n p : Nat} (hn : 1 ≤ n) (hp : 0 < p) : (n - 1) / p + 1 = n ⌈/⌉ p := by
  rw [Nat.ceilDiv_eq_add_pred_div]
  have h : n + p - 1 = (n - 1) + p * 1 := by omega
  rw [h, Nat.add_mul_div_left _ _ hp]

/-- The pages rounded up cover what they count. -/
theorem le_mul_ceilDiv (n : Nat) {p : Nat} (hp : 0 < p) : n ≤ p * (n ⌈/⌉ p) :=
  (ceilDiv_le_iff_le_mul hp).1 le_rfl

/-- Pages rounded up, and their count rounded up to a power of two, still cover what they count. -/
theorem le_mul_pow_clog_ceilDiv (n : Nat) {p : Nat} (hp : 0 < p) : n ≤ p * 2 ^ Nat.clog 2 (n ⌈/⌉ p) :=
  le_trans (le_mul_ceilDiv n hp) (Nat.mul_le_mul_left p (Nat.le_pow_clog one_lt_two _))

end PowTwo
