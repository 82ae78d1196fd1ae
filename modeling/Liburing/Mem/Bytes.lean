import Mathlib.Algebra.Group.Nat.Defs
import Mathlib.Data.Set.Function
/-!
# Bytes of memory and little-endian stores

| here | what it is |
| --- | --- |
| `Mem` | a byte at every address |
| `span a w` | the bytes `[a, a + w)` |
| `store m a w v` | the `w` low bytes of `v` written at `a`, least significant first |
| `load m a w` | the `w` bytes at `a` read as a number |
| `orStore m a w c` | `x |= c` on the `w` bytes at `a` |

A C assignment to a field of `w` bytes converts the value to the field's type, which keeps its
low `8 * w` bits, and writes them in the machine's byte order. `store` does both at once for a
little-endian machine. What the development uses is how two memories are related after the same
writes. The same store makes them agree on the bytes it writes. A store keeps every agreement
they had, and leaves every byte outside its span as it was. A read-modify-write keeps agreement
on a set of bytes that holds the bytes it reads.
-/

namespace ByteMem

/-- A byte at each address. -/
abbrev Mem := Nat → BitVec 8

/-- The `w` bytes from `a`. -/
def span (a w : Nat) : Set Nat := {j | a ≤ j ∧ j < a + w}

/-- Write the `w` low bytes of `v` at `a`, least significant first. -/
def store (m : Mem) (a w v : Nat) : Mem := fun j =>
  if a ≤ j ∧ j < a + w then BitVec.ofNat 8 (v / 256 ^ (j - a)) else m j

/-- Read the `w` bytes at `a`, least significant first. -/
def load (m : Mem) (a : Nat) : Nat → Nat
  | 0 => 0
  | w + 1 => (m a).toNat + 256 * load m (a + 1) w

/-- `x |= c` on the `w` bytes at `a`. -/
def orStore (m : Mem) (a w c : Nat) : Mem := store m a w (load m a w ||| c)

theorem mem_span {a w j : Nat} : j ∈ span a w ↔ a ≤ j ∧ j < a + w := Iff.rfl

/-- A store leaves every byte outside its span as it was. -/
theorem store_apply_of_not_mem (m : Mem) {a w j : Nat} (hj : j ∉ span a w) (v : Nat) :
    store m a w v j = m j :=
  if_neg hj

/-- So does a read-modify-write. -/
theorem orStore_apply_of_not_mem (m : Mem) {a w j : Nat} (hj : j ∉ span a w) (c : Nat) :
    orStore m a w c j = m j :=
  store_apply_of_not_mem m hj _

section
variable {m₁ m₂ : Mem} {s : Set Nat}

/-- The same store makes two memories agree on the bytes it writes. -/
theorem store_eqOn_span (m₁ m₂ : Mem) (a w v : Nat) : Set.EqOn (store m₁ a w v) (store m₂ a w v) (span a w) :=
  fun j hj => by simp only [store, if_pos (mem_span.1 hj)]

/-- A store keeps every agreement of two memories. -/
theorem store_eqOn (h : Set.EqOn m₁ m₂ s) (a w v : Nat) : Set.EqOn (store m₁ a w v) (store m₂ a w v) s := by
  intro j hj
  unfold store
  split
  · rfl
  · exact h hj

/-- After the same store, two memories agree where they agreed and on the bytes written. -/
theorem store_eqOn_union (h : Set.EqOn m₁ m₂ s) (a w v : Nat) :
    Set.EqOn (store m₁ a w v) (store m₂ a w v) (s ∪ span a w) := by
  rintro j (hj | hj)
  · exact store_eqOn h a w v hj
  · exact store_eqOn_span m₁ m₂ a w v hj

/-- A load reads only the bytes it spans. -/
theorem load_congr (h : Set.EqOn m₁ m₂ s) : ∀ (a w : Nat), span a w ⊆ s → load m₁ a w = load m₂ a w
  | _, 0, _ => rfl
  | a, w + 1, hs => by
    -- the first byte, then the `w` bytes after it
    have h0 : m₁ a = m₂ a := h (hs (mem_span.2 ⟨le_rfl, by omega⟩))
    have ih := load_congr h (a + 1) w fun j hj => hs (mem_span.2 (by rw [mem_span] at hj; omega))
    simp only [load, h0, ih]

/-- A store seen from its second byte on is the store of the value's higher bytes there. -/
theorem store_succ_eqOn (m : Mem) (a w v : Nat) :
    Set.EqOn (store m a (w + 1) v) (store m (a + 1) w (v / 256)) (span (a + 1) w) := by
  intro j hj
  rw [mem_span] at hj
  simp only [store, if_pos hj, if_pos (show a ≤ j ∧ j < a + (w + 1) by omega)]
  rw [Nat.div_div_eq_div_mul, ← pow_succ', show j - (a + 1) + 1 = j - a by omega]

/-- Reading back a store gives the value, modulo the bytes written. -/
theorem load_store_self (m : Mem) : ∀ (a w v : Nat), load (store m a w v) a w = v % 256 ^ w
  | _, 0, v => by simp only [load, Nat.pow_zero, Nat.mod_one]
  | a, w + 1, v => by
    -- the first byte, then the higher bytes as a store one byte on
    have h0 : (store m a (w + 1) v a).toNat = v % 256 := by
      simp only [store, if_pos (show a ≤ a ∧ a < a + (w + 1) by omega), Nat.sub_self, Nat.pow_zero,
        Nat.div_one, BitVec.toNat_ofNat]
    have hrest : load (store m a (w + 1) v) (a + 1) w = v / 256 % 256 ^ w := by
      rw [load_congr (store_succ_eqOn m a w v) (a + 1) w subset_rfl, load_store_self m (a + 1) w (v / 256)]
    rw [load, h0, hrest, Nat.pow_succ', Nat.mod_mul]

/-- A store leaves the loads of other bytes as they were. -/
theorem load_store_of_disjoint (m : Mem) {a w b u : Nat} (h : a + w ≤ b ∨ b + u ≤ a) (v : Nat) :
    load (store m b u v) a w = load m a w :=
  load_congr (fun j hj => store_apply_of_not_mem m (fun hj' => by rw [mem_span] at hj hj'; omega) v)
    a w subset_rfl

/-- A read-modify-write keeps agreement on a set that holds the bytes it reads. -/
theorem orStore_eqOn (h : Set.EqOn m₁ m₂ s) {a w : Nat} (hs : span a w ⊆ s) (c : Nat) :
    Set.EqOn (orStore m₁ a w c) (orStore m₂ a w c) s := by
  unfold orStore
  rw [load_congr h a w hs]
  exact store_eqOn h a w _

end

/-- Reading back `x |= c` gives the bytes ORed with `c`. -/
theorem load_orStore_self (m : Mem) (a w c : Nat) : load (orStore m a w c) a w = (load m a w ||| c) % 256 ^ w :=
  load_store_self m a w _

theorem load_orStore_of_disjoint (m : Mem) {a w b u : Nat} (h : a + w ≤ b ∨ b + u ≤ a) (c : Nat) :
    load (orStore m b u c) a w = load m a w :=
  load_store_of_disjoint m h _

end ByteMem
