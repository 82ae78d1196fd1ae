import Mathlib.Data.List.Basic
import Mathlib.Data.Nat.Bitwise
/-!
# Mapped regions

An address space as the list of the regions that `mmap` created and `munmap` has not released.
`munmap` acts at the granularity of the mapping it hits: an ordinary mapping is released when
the length, rounded up to the page size, covers it; a mapping of huge pages only when the length
is a multiple of the huge-page size and covers it, since munmap(2) fails with EINVAL otherwise.
A call that does not cover a mapping leaves it in place, so the mapping, or the part of it that
stays mapped, is leaked.

Sizes are rounded up to pages with the C idiom `(x + g - 1) & ~(g - 1)`; `alignUp_toNat` says
that it is `roundUp` when `g` is a power of two and nothing wraps.
-/
namespace AddrSpace

/-- A mapping: where it starts, the length asked for, and whether it is made of huge pages. -/
structure Region where
  addr : Nat
  len : Nat
  huge : Bool
deriving DecidableEq, Repr

/-- `n` rounded up to a multiple of `g`. -/
def roundUp (n g : Nat) : Nat := (n + g - 1) / g * g

/-! ## Page rounding -/

section
variable {g : Nat}

theorem le_roundUp (n : Nat) (hg : 0 < g) : n ≤ roundUp n g := by
  have h := Nat.lt_div_mul_add (a := n + g - 1) hg
  unfold roundUp
  omega

theorem roundUp_lt (n : Nat) (hg : 0 < g) : roundUp n g < n + g := by
  have h := Nat.div_mul_le_self (n + g - 1) g
  unfold roundUp
  omega

theorem dvd_roundUp (n : Nat) : g ∣ roundUp n g := Nat.dvd_mul_left g _

theorem roundUp_of_dvd (hg : 0 < g) {n : Nat} (h : g ∣ n) : roundUp n g = n := by
  obtain ⟨c, rfl⟩ := h
  have hlt : g - 1 < g := by omega
  rw [roundUp, show g * c + g - 1 = g - 1 + g * c by omega, Nat.add_mul_div_left _ _ hg,
    Nat.div_eq_of_lt hlt, Nat.zero_add, Nat.mul_comm]

/-- Nothing to round: `roundUp 0 g` is 0 for every `g`, 0 included. -/
theorem roundUp_zero (g : Nat) : roundUp 0 g = 0 := by
  unfold roundUp
  rcases Nat.eq_zero_or_pos g with rfl | hg
  · rfl
  · rw [Nat.div_eq_of_lt (by omega), Nat.zero_mul]

/-- Rounding past an aligned prefix rounds the rest. -/
theorem roundUp_add_of_dvd (hg : 0 < g) {a : Nat} (n : Nat) (h : g ∣ a) :
    roundUp (a + n) g = a + roundUp n g := by
  obtain ⟨c, rfl⟩ := h
  rw [roundUp, roundUp, show g * c + n + g - 1 = n + g - 1 + g * c by omega, Nat.add_mul_div_left _ _ hg,
    Nat.add_mul, Nat.add_comm, Nat.mul_comm c g]

end

/-- Clearing the low `k` bits rounds down to a multiple of `2 ^ k`. -/
theorem and_not_low_toNat {w k : Nat} (y m : BitVec w) (hm : m.toNat = 2 ^ k - 1) :
    (y &&& ~~~m).toNat = y.toNat / 2 ^ k * 2 ^ k := by
  rw [← Nat.shiftRight_eq_div_pow, ← Nat.shiftLeft_eq]
  apply Nat.eq_of_testBit_eq
  intro i
  rw [BitVec.testBit_toNat, BitVec.getLsbD_and, BitVec.getLsbD_not, Nat.testBit_shiftLeft,
    Nat.testBit_shiftRight, ← BitVec.testBit_toNat m, hm, Nat.testBit_two_pow_sub_one, ← BitVec.testBit_toNat]
  -- bit `i` is kept exactly when `k ≤ i`; above the width both sides are zero
  by_cases hi : i < w
  · by_cases hk : k ≤ i
    · simp [hi, hk, Nat.add_sub_cancel' hk]
    · simp [hi, hk, Nat.lt_of_not_le hk]
  · have hy : ∀ j, w ≤ j → y.toNat.testBit j = false := fun j hj =>
      Nat.testBit_lt_two_pow (lt_of_lt_of_le y.isLt (Nat.pow_le_pow_right Nat.two_pos hj))
    simp only [hi, decide_false, Bool.false_and, Bool.and_false]
    by_cases hk : k ≤ i
    · simp [hk, Nat.add_sub_cancel' hk, hy i (by omega)]
    · simp [hk]

theorem toNat_sub_one {w : Nat} (g : BitVec w) (hg : 1 ≤ g.toNat) : (g - 1).toNat = g.toNat - 1 := by
  have hw : 0 < w := by
    rcases Nat.eq_zero_or_pos w with rfl | hw
    · have := g.isLt
      simp at this
      omega
    · exact hw
  have h1 : (1 : BitVec w).toNat = 1 := by simp [Nat.one_mod_two_pow hw]
  rw [BitVec.toNat_sub_of_le (by rw [BitVec.le_def, h1]; exact hg), h1]

/-- `(x + g - 1) & ~(g - 1)` is `x` rounded up to a multiple of the power of two `g`. -/
theorem alignUp_toNat {w k : Nat} (x g : BitVec w) (hg : g.toNat = 2 ^ k) (hx : x.toNat + g.toNat < 2 ^ w) :
    ((x + g - 1) &&& ~~~(g - 1)).toNat = roundUp x.toNat g.toNat := by
  have hg1 : 1 ≤ g.toNat := by
    rw [hg]
    exact Nat.one_le_two_pow
  have hsum : (x + g).toNat = x.toNat + g.toNat := BitVec.toNat_add_of_lt (by omega)
  rw [and_not_low_toNat _ _ (by rw [toNat_sub_one g hg1, hg]), toNat_sub_one _ (by omega), hsum, roundUp, hg]

/-- What a program asks of the address space, with what `mmap` answered. -/
inductive Call where
  /-- `mmap` of `len` bytes, of huge pages or not, which returned `addr` or failed. -/
  | mmap (len : Nat) (huge : Bool) (addr : Option Nat)
  /-- `munmap(addr, len)`. -/
  | munmap (addr len : Nat)
deriving DecidableEq, Repr

section
variable (page hugePage : Nat)

/-- Whether `munmap(addr, len)` releases the mapping `r`. -/
def releases (addr len : Nat) (r : Region) : Bool :=
  r.addr == addr && if r.huge then len % hugePage == 0 && decide (r.len ≤ len) else decide (r.len ≤ roundUp len page)

def munmap (addr len : Nat) (space : List Region) : List Region :=
  space.filter fun r => !releases page hugePage addr len r

/-- The address space after a program's calls. -/
def replay : List Region → List Call → List Region
  | space, [] => space
  | space, .mmap len huge (some addr) :: calls => replay (space ++ [⟨addr, len, huge⟩]) calls
  | space, .mmap _ _ none :: calls => replay space calls
  | space, .munmap addr len :: calls => replay (munmap page hugePage addr len space) calls

theorem mem_munmap {addr len : Nat} {r : Region} {space : List Region} :
    r ∈ munmap page hugePage addr len space ↔ r ∈ space ∧ releases page hugePage addr len r = false := by
  simp [munmap]

/-- A mapping of huge pages survives a length that is not a multiple of the huge-page size. -/
theorem releases_huge {addr len : Nat} {r : Region} (hr : r.huge = true) (hlen : len % hugePage ≠ 0) :
    releases page hugePage addr len r = false := by
  simp [releases, hr, hlen]

/-- An ordinary mapping is released by a call at its address that covers its pages. -/
theorem releases_cover {addr len : Nat} {r : Region} (hr : r.huge = false) (ha : r.addr = addr)
    (hlen : r.len ≤ roundUp len page) : releases page hugePage addr len r = true := by
  simp [releases, hr, ha, hlen]

/-- Whether a call on `len` bytes at `addr`, its length rounded up to pages as munmap(2) and
madvise(2) round it, reaches the byte at `j`. -/
def touches (addr len j : Nat) : Bool := decide (addr ≤ j) && decide (j < addr + roundUp len page)

/-- A call on no bytes reaches none. -/
theorem touches_zero (addr j : Nat) : touches page addr 0 j = false := by
  simp [touches, roundUp_zero]

/-- A call reaches no byte past its pages. -/
theorem touches_of_le {addr len j : Nat} (h : addr + roundUp len page ≤ j) : touches page addr len j = false := by
  simp only [touches, Bool.and_eq_false_iff, decide_eq_false_iff_not, Nat.not_lt]
  exact .inr h

/-- An unmap at the address of a mapping that no other mapping shares, and that covers it,
releases that mapping alone. -/
theorem munmap_eq_erase {len : Nat} {r : Region} : ∀ {space : List Region}, r ∈ space →
    (space.map Region.addr).Nodup → releases page hugePage r.addr len r = true →
      munmap page hugePage r.addr len space = space.erase r
  | [], hr, _, _ => absurd hr List.not_mem_nil
  | x :: xs, hr, hnd, hrel => by
    rw [List.map_cons, List.nodup_cons] at hnd
    -- a mapping at another address is kept
    have hkeep : ∀ y : Region, y.addr ≠ r.addr → releases page hugePage r.addr len y = false := fun y hy => by
      simp [releases, hy]
    by_cases hx : x = r
    · subst hx
      have hxs : ∀ y ∈ xs, (!releases page hugePage x.addr len y) = true := fun y hy => by
        rw [hkeep y fun he => hnd.1 (he ▸ List.mem_map_of_mem hy)]
        rfl
      rw [List.erase_cons_head, munmap, List.filter_cons, hrel]
      exact List.filter_eq_self.2 hxs
    · have hr' : r ∈ xs := (List.mem_cons.1 hr).resolve_left (Ne.symm hx)
      have hxa : x.addr ≠ r.addr := fun he => hnd.1 (he ▸ List.mem_map_of_mem hr')
      rw [List.erase_cons_tail (by simpa using hx), munmap, List.filter_cons, hkeep x hxa]
      exact congrArg (x :: ·) (munmap_eq_erase hr' hnd.2 hrel)

theorem replay_append (space : List Region) (calls more : List Call) :
    replay page hugePage space (calls ++ more) = replay page hugePage (replay page hugePage space calls) more := by
  induction calls generalizing space with
  | nil => rfl
  | cons c calls ih =>
    cases c with
    | mmap len huge addr => cases addr <;> exact ih _
    | munmap addr len => exact ih _

/-- A mapping that the last call of a run releases is not mapped at its end. -/
theorem not_mem_replay_munmap {addr len : Nat} {r : Region} (space : List Region) (calls : List Call)
    (h : releases page hugePage addr len r = true) :
    r ∉ replay page hugePage space (calls ++ [.munmap addr len]) := by
  rw [replay_append]
  simp [replay, mem_munmap, h]

/-- A mapping that no call of a run releases is still mapped at its end. -/
theorem mem_replay_of_kept {r : Region} : ∀ (space : List Region) (calls : List Call), r ∈ space →
    (∀ addr len, Call.munmap addr len ∈ calls → releases page hugePage addr len r = false) →
      r ∈ replay page hugePage space calls
  | _, [], hr, _ => hr
  | _, .mmap _ _ (some _) :: calls, hr, hk =>
    mem_replay_of_kept _ calls (List.mem_append_left _ hr) fun a l h => hk a l (List.mem_cons_of_mem _ h)
  | space, .mmap _ _ none :: calls, hr, hk =>
    mem_replay_of_kept space calls hr fun a l h => hk a l (List.mem_cons_of_mem _ h)
  | _, .munmap addr len :: calls, hr, hk =>
    mem_replay_of_kept _ calls ((mem_munmap page hugePage).2 ⟨hr, hk addr len List.mem_cons_self⟩)
      fun a l h => hk a l (List.mem_cons_of_mem _ h)

/-! ## Runs that leave nothing mapped -/

/-- A run of calls that leaves no mapping it created: from every address space, whatever is
mapped at its end was mapped at its start. -/
def Balanced (calls : List Call) : Prop :=
  ∀ space, ∀ r ∈ replay page hugePage space calls, r ∈ space

theorem balanced_nil : Balanced page hugePage [] := fun _ _ hr => hr

theorem balanced_append {calls more : List Call} (h1 : Balanced page hugePage calls)
    (h2 : Balanced page hugePage more) : Balanced page hugePage (calls ++ more) := by
  intro space r hr
  rw [replay_append] at hr
  exact h1 space r (h2 _ r hr)

/-- What remains after a run of unmaps was there before, and no unmap of the run released it. -/
theorem mem_replay_munmaps : ∀ (us : List (Nat × Nat)) (space : List Region) (r : Region),
    r ∈ replay page hugePage space (us.map fun u => .munmap u.1 u.2) →
      r ∈ space ∧ ∀ u ∈ us, releases page hugePage u.1 u.2 r = false
  | [], _, _, hr => ⟨hr, fun _ hu => absurd hu List.not_mem_nil⟩
  | u :: us, space, r, hr => by
    obtain ⟨hm, hk⟩ := mem_replay_munmaps us _ r hr
    obtain ⟨hs, hu⟩ := (mem_munmap page hugePage).1 hm
    refine ⟨hs, fun v hv => ?_⟩
    rcases List.mem_cons.1 hv with rfl | hv
    · exact hu
    · exact hk v hv

theorem balanced_munmaps (us : List (Nat × Nat)) : Balanced page hugePage (us.map fun u => .munmap u.1 u.2) :=
  fun space r hr => (mem_replay_munmaps page hugePage us space r hr).1

/-- Unmaps after a balanced run keep it balanced. -/
theorem balanced_append_munmaps {calls : List Call} (h : Balanced page hugePage calls) (us : List (Nat × Nat)) :
    Balanced page hugePage (calls ++ us.map fun u => .munmap u.1 u.2) :=
  balanced_append page hugePage h (balanced_munmaps page hugePage us)

/-- Mappings followed by unmaps that release each of them leave nothing behind. A failed `mmap`
creates nothing, so the mappings are given with their answers. -/
theorem balanced_mmaps_munmaps (ms : List (Nat × Bool × Option Nat)) (us : List (Nat × Nat))
    (h : ∀ m ∈ ms, ∀ a ∈ m.2.2, ∃ u ∈ us, releases page hugePage u.1 u.2 ⟨a, m.1, m.2.1⟩ = true) :
    Balanced page hugePage ((ms.map fun m => .mmap m.1 m.2.1 m.2.2) ++ us.map fun u => .munmap u.1 u.2) := by
  induction ms with
  | nil => exact balanced_munmaps page hugePage us
  | cons m ms ih =>
    have ih' := ih fun m' hm' => h m' (List.mem_cons_of_mem _ hm')
    obtain ⟨len, huge, addr⟩ := m
    intro space r hr
    cases addr with
    | none => exact ih' space r hr
    | some a =>
      -- the new mapping is released by one of the unmaps; the rest is the induction
      have hr' := ih' _ r hr
      rcases List.mem_append.1 hr' with hs | hnew
      · exact hs
      · obtain ⟨u, hu, hrel⟩ := h _ List.mem_cons_self a rfl
        rw [List.mem_singleton.1 hnew] at hr
        rw [replay_append] at hr
        have := (mem_replay_munmaps page hugePage us _ _ hr).2 u hu
        rw [hrel] at this
        cases this

/-- Ordinary mappings, each later unmapped at its own address and length, leave nothing behind. -/
theorem balanced_unmapped_self (hpage : 0 < page) (ms : List (Nat × Bool × Option Nat)) (us : List (Nat × Nat))
    (h : ∀ m ∈ ms, ∀ a ∈ m.2.2, m.2.1 = false ∧ (a, m.1) ∈ us) :
    Balanced page hugePage ((ms.map fun m => .mmap m.1 m.2.1 m.2.2) ++ us.map fun u => .munmap u.1 u.2) :=
  balanced_mmaps_munmaps page hugePage ms us fun m hm a ha =>
    ⟨(a, m.1), (h m hm a ha).2, releases_cover page hugePage (h m hm a ha).1 rfl (le_roundUp _ hpage)⟩

end

end AddrSpace
