import Mathlib.Data.Nat.ModEq
import Mathlib.Logic.Function.Basic
/-!
# Windows of a ring

`window rd h n` is what a reader sees who reads `n` consecutive positions `h, h+1, …` of a
ring through `rd` (position ↦ content, typically `mem ∘ slot`). A queue stored in a ring is
such a window; producing and consuming are extending it at the back and shrinking it at the
front, and a write into a slot outside the window leaves it unchanged (`window_update_of_ne`).
When slots are positions modulo `N`, any `N` consecutive positions occupy distinct slots
(`mod_ne_of_lt`), which is what makes the write at the back a frame write.
-/
namespace SlotRing

variable {α ι : Type*}

/-- The contents of the `n` positions `h, h+1, …, h+n-1`. -/
def window (rd : Nat → α) (h : Nat) : Nat → List α
  | 0 => []
  | n + 1 => rd h :: window rd (h + 1) n

@[simp] theorem window_zero (rd : Nat → α) (h : Nat) : window rd h 0 = [] := rfl

theorem window_succ (rd : Nat → α) (h n : Nat) :
    window rd h (n + 1) = rd h :: window rd (h + 1) n := rfl

@[simp] theorem length_window (rd : Nat → α) (h n : Nat) : (window rd h n).length = n := by
  induction n generalizing h with
  | zero => rfl
  | succ n ih => simp [window_succ, ih]

theorem window_add (rd : Nat → α) (h m n : Nat) :
    window rd h (m + n) = window rd h m ++ window rd (h + m) n := by
  induction m generalizing h with
  | zero => simp
  | succ m ih =>
    rw [Nat.add_right_comm, window_succ, window_succ, ih, List.cons_append, Nat.add_right_comm h 1 m,
      Nat.add_assoc]

theorem window_snoc (rd : Nat → α) (h n : Nat) :
    window rd h (n + 1) = window rd h n ++ [rd (h + n)] := by
  rw [window_add]; rfl

theorem map_window {β : Type*} (f : α → β) (rd : Nat → α) (h n : Nat) :
    (window rd h n).map f = window (fun p => f (rd p)) h n := by
  induction n generalizing h with
  | zero => rfl
  | succ n ih => rw [window_succ, window_succ, List.map_cons, ih]

theorem getElem?_window (rd : Nat → α) (h n j : Nat) (hj : j < n) :
    (window rd h n)[j]? = some (rd (h + j)) := by
  induction n generalizing h j with
  | zero => omega
  | succ n ih =>
    cases j with
    | zero => rfl
    | succ j =>
      rw [window_succ, List.getElem?_cons_succ, ih (h + 1) j (by omega), Nat.add_right_comm, Nat.add_assoc]

/-- Two windows agree when they read the same contents position by position. -/
theorem window_congr {rd rd' : Nat → α} {h h' n : Nat} (hrd : ∀ j < n, rd (h + j) = rd' (h' + j)) :
    window rd h n = window rd' h' n := by
  apply List.ext_getElem? fun j => ?_
  by_cases hj : j < n
  · rw [getElem?_window _ _ _ _ hj, getElem?_window _ _ _ _ hj, hrd j hj]
  · rw [List.getElem?_eq_none (by simp; omega), List.getElem?_eq_none (by simp; omega)]

theorem take_window (rd : Nat → α) (h : Nat) {k n : Nat} (hk : k ≤ n) :
    (window rd h n).take k = window rd h k := by
  obtain ⟨m, rfl⟩ := Nat.exists_eq_add_of_le hk
  rw [window_add, List.take_left' (by simp)]

theorem take_window_min (rd : Nat → α) (h k n : Nat) : (window rd h n).take k = window rd h (min k n) := by
  rcases Nat.le_total k n with hk | hk
  · rw [take_window rd h hk, Nat.min_eq_left hk]
  · rw [List.take_of_length_le (by simpa using hk), Nat.min_eq_right hk]

theorem drop_window (rd : Nat → α) (h : Nat) {k n : Nat} (hk : k ≤ n) :
    (window rd h n).drop k = window rd (h + k) (n - k) := by
  obtain ⟨m, rfl⟩ := Nat.exists_eq_add_of_le hk
  rw [window_add, List.drop_left' (by simp), Nat.add_sub_cancel_left]

/-- A reader that only sees positions modulo `M` cannot tell `h` from `h % M`. -/
theorem window_mod {rd : Nat → α} {M : Nat} (hrd : ∀ p, rd (p % M) = rd p) (h n : Nat) :
    window rd (h % M) n = window rd h n := by
  apply window_congr
  intro j _
  rw [← hrd (h % M + j), ← hrd (h + j), Nat.add_mod, Nat.mod_mod, ← Nat.add_mod]

/-- Starting points that agree modulo `M` give the same window. -/
theorem window_mod_eq {rd : Nat → α} {M : Nat} (hrd : ∀ p, rd (p % M) = rd p) {h h' : Nat}
    (e : h % M = h' % M) (n : Nat) : window rd h n = window rd h' n := by
  rw [← window_mod hrd h, e, window_mod hrd]

/-! ## Slots -/

/-- Fewer than `N` steps apart, two positions fall in different slots modulo `N`. -/
theorem mod_ne_of_lt {N h i j : Nat} (hi : i < N) (hj : j < N) (hij : i ≠ j) :
    (h + i) % N ≠ (h + j) % N := by
  intro e
  have hm : i ≡ j [MOD N] := Nat.ModEq.add_left_cancel' h e
  rw [Nat.ModEq, Nat.mod_eq_of_lt hi, Nat.mod_eq_of_lt hj] at hm
  exact hij hm

/-- Slots that are positions modulo `N`: a window shorter than `N` never reuses the slot just
past its end. -/
theorem slot_ne_of_mod {slot : Nat → ι} {N : Nat} (hslot : ∀ p q, slot p = slot q ↔ p % N = q % N) {h n : Nat}
    (hn : n < N) : ∀ j < n, slot (h + j) ≠ slot (h + n) := fun j hj e =>
  mod_ne_of_lt (by omega) hn (Nat.ne_of_lt hj) ((hslot _ _).1 e)

section
variable [DecidableEq ι] {mem : ι → α} {slot : Nat → ι}

/-- Writing a slot that no position of the window uses leaves the window unchanged. -/
theorem window_update_of_ne {h n : Nat} {i : ι} (v : α) (hne : ∀ j < n, slot (h + j) ≠ i) :
    window (fun p => Function.update mem i v (slot p)) h n = window (fun p => mem (slot p)) h n :=
  window_congr fun j hj => Function.update_of_ne (hne j hj) v mem

/-- Filling the slot just past the window and growing it by one appends the new content. -/
theorem window_push {h n : Nat} (v : α) (hne : ∀ j < n, slot (h + j) ≠ slot (h + n)) :
    window (fun p => Function.update mem (slot (h + n)) v (slot p)) h (n + 1) =
      window (fun p => mem (slot p)) h n ++ [v] := by
  rw [window_snoc, window_update_of_ne v hne, Function.update_self]

/-- Overwriting the slot of the `i`-th position of a window, when no other position of the
window shares that slot, overwrites the `i`-th entry. -/
theorem window_update_set {h n i : Nat} (v : α) (hi : i < n)
    (hinj : ∀ j < n, slot (h + j) = slot (h + i) → j = i) :
    window (fun p => Function.update mem (slot (h + i)) v (slot p)) h n =
      (window (fun p => mem (slot p)) h n).set i v := by
  apply List.ext_getElem? fun j => ?_
  rw [List.getElem?_set]
  by_cases hj : j < n
  · rw [getElem?_window _ _ _ _ hj]
    by_cases hji : i = j
    · subst hji; simp [hi]
    · rw [if_neg hji, getElem?_window _ _ _ _ hj,
        Function.update_of_ne (fun e => hji (hinj j hj e).symm)]
  · rw [List.getElem?_eq_none (by simp; omega), List.getElem?_eq_none (by simp; omega)]
    simp only [length_window]; split <;> simp_all

end

end SlotRing
