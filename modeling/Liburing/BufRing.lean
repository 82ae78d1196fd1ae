import Liburing.Cq
import Liburing.Ring.Run
/-!
# The provided-buffer ring (liburing.h:1433-1505; io_uring.h:653-674; setup.c:626-672)

| here | there |
| --- | --- |
| `IoUringBuf`, `IoUringBufRing` | `struct io_uring_buf`, `struct io_uring_buf_ring`; the ring's `tail` is `bufs[0].resv` |
| `ioUringBufRingMask`, `ioUringBufRingInit`, `ioUringBufRingAdd`, `ioUringBufRingAdvance` | liburing.h:1433-1469 |
| `__ioUringBufRingCqAdvance`, `ioUringBufRingCqAdvance` | liburing.h:1471-1491 |
| `ioUringSetupBufRing` | `io_uring_setup_buf_ring` (setup.c:660), given what `br_setup` mapped and registered |
| `ioUringBufRingAvailable` | liburing.h:1493, given the answer of `io_uring_buf_ring_head` (register.c:329) |
| `kernelBufSlot` | the kernel's read of `bufs[head & mask]` with its 16-bit head |

The union of `struct io_uring_buf_ring` puts `tail` at bytes 14-15, the `resv` field of
`bufs[0]`: the buffers are whole `struct io_uring_buf` records and `tail` reads `bufs[0].resv`,
so a write to a buffer's other fields cannot touch it (`ioUringBufRingAdd_tail`). C `int`
arithmetic is done on the two's complement bit pattern.

The ring is a staged FIFO (`Ring/Fifo.lean`) over 16-bit positions: the buffers added since the
last advance are held by the application at `[tail, tail + added)`, the published ones wait for
the kernel at `[head, tail)`. A ring of `2^k ≤ 32768` entries divides `2^16`, so the slot of a
position does not change when the 16-bit counters wrap (`BufConf.posSlot_mod_add`).
-/
set_option linter.style.nameCheck false

namespace Liburing

open SlotRing

/-- `struct io_uring_buf`. -/
structure IoUringBuf where
  addr : U64
  len : U32
  bid : U16
  resv : U16
deriving DecidableEq, Repr

/-- What the kernel takes from a buffer: `(addr, len, bid)`. -/
def IoUringBuf.entry (b : IoUringBuf) : U64 × U32 × U16 := (b.addr, b.len, b.bid)

/-- `struct io_uring_buf_ring`: the buffers, indexed by the bit pattern of a C `int`. -/
structure IoUringBufRing where
  bufs : U32 → IoUringBuf

/-- `br->tail`, which overlays `bufs[0].resv`. -/
def IoUringBufRing.tail (br : IoUringBufRing) : U16 := (br.bufs 0).resv

/-- The `(addr, len, bid)` of every buffer. -/
def IoUringBufRing.entries (br : IoUringBufRing) : U32 → U64 × U32 × U16 := fun i => (br.bufs i).entry

/-- `io_uring_buf_ring_mask`: `ring_entries - 1` returned as an `int`. -/
def ioUringBufRingMask (ringEntries : U32) : Int32 := Int32.ofBitVec (ringEntries - 1)

/-- `io_uring_buf_ring_init`. -/
def ioUringBufRingInit (br : IoUringBufRing) : IoUringBufRing :=
  ⟨Function.update br.bufs 0 { br.bufs 0 with resv := 0 }⟩

/-- `io_uring_buf_ring_add`: fill `bufs[(tail + buf_offset) & mask]`, computed in `int`. -/
def ioUringBufRingAdd (br : IoUringBufRing) (addr : U64) (len : U32) (bid : U16) (mask bufOffset : Int32) :
    IoUringBufRing :=
  let i := (br.tail.setWidth 32 + bufOffset.toBitVec) &&& mask.toBitVec
  ⟨Function.update br.bufs i { br.bufs i with addr, len, bid }⟩

/-- `io_uring_buf_ring_advance`: `unsigned short new_tail = br->tail + count;`, then the store. -/
def ioUringBufRingAdvance (br : IoUringBufRing) (count : Int32) : IoUringBufRing :=
  let newTail : U16 := (br.tail.setWidth 32 + count.toBitVec).setWidth 16
  ⟨Function.update br.bufs 0 { br.bufs 0 with resv := newTail }⟩

/-- `__io_uring_buf_ring_cq_advance`: the buffer ring advances by `buf_count`, then
`io_uring_cq_advance(ring, cq_count)` (whose `unsigned nr` takes the `int`'s bit pattern). -/
def __ioUringBufRingCqAdvance (cq : CqState) (br : IoUringBufRing) (cqCount bufCount : Int32) :
    CqState × IoUringBufRing :=
  let br := ioUringBufRingAdvance br bufCount
  (ioUringCqAdvance cq cqCount.toBitVec, br)

/-- `io_uring_buf_ring_cq_advance`. -/
def ioUringBufRingCqAdvance (cq : CqState) (br : IoUringBufRing) (count : Int32) : CqState × IoUringBufRing :=
  __ioUringBufRingCqAdvance cq br count count

/-- `io_uring_setup_buf_ring`: `br_setup` maps and registers a ring (or fails with `NULL`), which
is then initialised. -/
def ioUringSetupBufRing (brSetup : Option IoUringBufRing) : Option IoUringBufRing :=
  brSetup.map ioUringBufRingInit

/-- `io_uring_buf_ring_available`, where `io_uring_buf_ring_head` returned `ret` and, on
success, the head the kernel reported. -/
def ioUringBufRingAvailable (br : IoUringBufRing) (ret : Int32) (head : U32) : Int32 :=
  if ret ≠ 0 then ret
  -- `br->tail - head`: the `__u16` tail is promoted and converted to `unsigned`
  else Int32.ofBitVec (br.tail.setWidth 32 - head)

/-! ## The ring's memory -/

/-- Storing into a buffer's `resv` changes no buffer's `(addr, len, bid)`. -/
theorem entries_update_resv (bufs : U32 → IoUringBuf) (i : U32) (r : U16) :
    IoUringBufRing.entries ⟨Function.update bufs i { bufs i with resv := r }⟩ = IoUringBufRing.entries ⟨bufs⟩ := by
  funext j
  simp only [IoUringBufRing.entries]
  rw [Function.apply_update (fun _ b => IoUringBuf.entry b)]
  have he : ({ bufs i with resv := r } : IoUringBuf).entry = (bufs i).entry := rfl
  rw [he, Function.update_eq_self]

section
variable (br : IoUringBufRing)

@[simp] theorem ioUringBufRingInit_tail : (ioUringBufRingInit br).tail = 0 := by
  simp [ioUringBufRingInit, IoUringBufRing.tail]

@[simp] theorem ioUringBufRingInit_entries : (ioUringBufRingInit br).entries = br.entries :=
  entries_update_resv br.bufs 0 0

/-- An add writes `addr`, `len` and `bid` of one buffer and no `resv` field. -/
theorem ioUringBufRingAdd_resv (addr : U64) (len : U32) (bid : U16) (mask bufOffset : Int32) (j : U32) :
    ((ioUringBufRingAdd br addr len bid mask bufOffset).bufs j).resv = (br.bufs j).resv := by
  simp only [ioUringBufRingAdd]
  generalize (br.tail.setWidth 32 + bufOffset.toBitVec) &&& mask.toBitVec = i
  by_cases hj : j = i
  · subst hj
    rw [Function.update_self]
  · rw [Function.update_of_ne hj]

/-- So an add never modifies the tail that overlays `bufs[0].resv`. -/
@[simp] theorem ioUringBufRingAdd_tail (addr : U64) (len : U32) (bid : U16) (mask bufOffset : Int32) :
    (ioUringBufRingAdd br addr len bid mask bufOffset).tail = br.tail :=
  ioUringBufRingAdd_resv br addr len bid mask bufOffset 0

theorem ioUringBufRingAdd_entries (addr : U64) (len : U32) (bid : U16) (mask bufOffset : Int32) :
    (ioUringBufRingAdd br addr len bid mask bufOffset).entries =
      Function.update br.entries ((br.tail.setWidth 32 + bufOffset.toBitVec) &&& mask.toBitVec)
        (addr, len, bid) := by
  funext j
  simp only [ioUringBufRingAdd, IoUringBufRing.entries]
  rw [Function.apply_update (fun _ b => IoUringBuf.entry b)]
  rfl

@[simp] theorem ioUringBufRingAdvance_tail (count : Int32) :
    (ioUringBufRingAdvance br count).tail = (br.tail.setWidth 32 + count.toBitVec).setWidth 16 := by
  simp [ioUringBufRingAdvance, IoUringBufRing.tail]

@[simp] theorem ioUringBufRingAdvance_entries (count : Int32) :
    (ioUringBufRingAdvance br count).entries = br.entries :=
  entries_update_resv br.bufs 0 _

/-- Advancing by a count of `n` buffers moves the 16-bit tail by `n`. -/
theorem ioUringBufRingAdvance_ofNat (n : Nat) :
    (ioUringBufRingAdvance br (Int32.ofNat n)).tail = br.tail + BitVec.ofNat 16 n := by
  rw [ioUringBufRingAdvance_tail, Int32.toBitVec_ofNat']
  apply BitVec.eq_of_toNat_eq
  simp

/-- On the buffer ring, `io_uring_buf_ring_cq_advance` is `io_uring_buf_ring_advance`. -/
@[simp] theorem ioUringBufRingCqAdvance_ring (cq : CqState) (count : Int32) :
    (ioUringBufRingCqAdvance cq br count).2 = ioUringBufRingAdvance br count := rfl

/-- A successful `io_uring_buf_ring_available` returns the 16-bit tail minus the kernel's 16-bit
head as integers: what is published when no wrap lies between them, a negative value when the
tail has wrapped and the head has not. -/
theorem ioUringBufRingAvailable_toInt (head : U16) :
    (ioUringBufRingAvailable br 0 (head.setWidth 32)).toInt = (br.tail.toNat : Int) - head.toNat := by
  have ht := br.tail.isLt
  have hh := head.isLt
  rw [ioUringBufRingAvailable, if_neg (by decide), Int32.toInt_ofBitVec, BitVec.toInt_eq_toNat_cond,
    BitVec.toNat_sub]
  simp only [BitVec.toNat_setWidth, Nat.reducePow]
  split <;> omega

end

theorem ioUringSetupBufRing_tail {brSetup : Option IoUringBufRing} {br : IoUringBufRing}
    (h : ioUringSetupBufRing brSetup = some br) : br.tail = 0 := by
  obtain ⟨mem, -, rfl⟩ := Option.map_eq_some_iff.1 h
  exact ioUringBufRingInit_tail mem

/-! ## The ring's geometry -/

/-- The ring's size, `2^logEntries ≤ 32768`. -/
structure BufConf where
  ringEntries : U32
  logEntries : Nat
  log_le : logEntries ≤ 15
  entries_eq : ringEntries = BitVec.ofNat 32 (2 ^ logEntries)

/-- The buffer the kernel takes at its head: `bufs[head & mask]`. -/
def kernelBufSlot (c : BufConf) (head : U16) : U32 := head.setWidth 32 &&& (c.ringEntries - 1)

/-- The buffer index of an unbounded position. -/
def BufConf.posSlot (c : BufConf) (p : Nat) : U32 := cellOf 32 c.logEntries 0 p

namespace BufConf
variable (c : BufConf)

theorem log_add_le : c.logEntries + 0 ≤ 32 := by have := c.log_le; omega

theorem two_pow_log_le : 2 ^ c.logEntries ≤ 2 ^ 15 := Nat.pow_le_pow_right (by decide) c.log_le

theorem entries_sub_one : c.ringEntries - 1 = BitVec.ofNat 32 (2 ^ c.logEntries - 1) := by
  have h1 : 1 ≤ 2 ^ c.logEntries := Nat.one_le_two_pow
  have h2 := c.two_pow_log_le
  apply BitVec.eq_of_toNat_eq
  rw [c.entries_eq, BitVec.toNat_sub, BitVec.toNat_ofNat, BitVec.toNat_ofNat]
  have h1' : BitVec.toNat (1 : U32) = 1 := rfl
  omega

/-- Slots only see 16-bit positions: the ring size divides `2^16`. -/
theorem posSlot_mod_add (x i : Nat) : c.posSlot (x % 2 ^ 16 + i) = c.posSlot (x + i) := by
  unfold posSlot
  rw [cellOf_eq_iff c.log_add_le, Nat.add_mod, Nat.mod_mod_of_dvd _ (Nat.pow_dvd_pow 2 (by have := c.log_le; omega)),
    ← Nat.add_mod]

theorem posSlot_mod (p : Nat) : c.posSlot (p % 2 ^ 16) = c.posSlot p := by
  simpa using c.posSlot_mod_add p 0

/-- The slot at `i` positions past a 16-bit counter `a` is the one at `i + (a - b)` past `b`. -/
theorem posSlot_sub_add (a b : U16) (i : Nat) :
    c.posSlot (a.toNat + i) = c.posSlot (b.toNat + (a - b).toNat + i) := by
  rw [toNat_eq_add_sub a b, posSlot_mod_add]

theorem posSlot_ne {b i j : Nat} (hi : i < 2 ^ c.logEntries) (hj : j < 2 ^ c.logEntries) (hij : i ≠ j) :
    c.posSlot (b + i) ≠ c.posSlot (b + j) :=
  cellOf_ne c.log_add_le hi hj hij

theorem kernelBufSlot_eq (head : U16) : kernelBufSlot c head = c.posSlot head.toNat := by
  have hsh : ∀ x : U32, x <<< 0 = x := fun x => BitVec.shiftLeft_zero x
  rw [kernelBufSlot, posSlot, cellOf, hsh, entries_sub_one]
  congr 1
  apply BitVec.eq_of_toNat_eq
  simp

/-- The buffer an add at offset `n` fills. -/
theorem addSlot_eq (tail : U16) (n : Nat) :
    (tail.setWidth 32 + (Int32.ofNat n).toBitVec) &&& (ioUringBufRingMask c.ringEntries).toBitVec =
      c.posSlot (tail.toNat + n) := by
  have hsh : ∀ x : U32, x <<< 0 = x := fun x => BitVec.shiftLeft_zero x
  rw [ioUringBufRingMask, Int32.toBitVec_ofBitVec, entries_sub_one, posSlot, cellOf, hsh,
    Int32.toBitVec_ofNat']
  congr 1
  apply BitVec.eq_of_toNat_eq
  simp

end BufConf

/-! ## Runs -/

/-- The ring in a run: the CQ that `io_uring_buf_ring_cq_advance` also moves, the kernel's
16-bit head, and how many buffers the application added since it last advanced the tail. -/
structure BufSys where
  cq : CqState
  br : IoUringBufRing
  head : U16
  added : Nat

/-- A ring that `io_uring_buf_ring_init` (or `io_uring_setup_buf_ring`) just initialised, with
the head at zero as the kernel registers it. -/
def bufInit (cq : CqState) (mem : IoUringBufRing) : BufSys := ⟨cq, ioUringBufRingInit mem, 0, 0⟩

inductive BufOp where
  /-- `io_uring_buf_ring_add(br, addr, len, bid, io_uring_buf_ring_mask(ring_entries), buf_offset)`. -/
  | add (addr : U64) (len : U32) (bid : U16) (bufOffset : Int32)
  /-- `io_uring_buf_ring_advance(br, count)`. -/
  | advance (count : Int32)
  /-- `io_uring_buf_ring_cq_advance(ring, br, count)`. -/
  | cqAdvance (count : Int32)
  /-- The kernel takes one buffer, if the ring is not empty. -/
  | consume

/-- A round adds at offsets `0, 1, …, c - 1`, each into a free buffer, and then advances by
`c`; the kernel may consume at any point. -/
def bufLegal (c : BufConf) (s : BufSys) : BufOp → Prop
  | .add _ _ _ off => off = Int32.ofNat s.added ∧ (s.br.tail - s.head).toNat + s.added < 2 ^ c.logEntries
  | .advance count => count = Int32.ofNat s.added
  | .cqAdvance count => count = Int32.ofNat s.added
  | .consume => True

instance bufLegal.decidable (c : BufConf) (s : BufSys) : (op : BufOp) → Decidable (bufLegal c s op)
  | .add _ _ _ off => inferInstanceAs (Decidable (off = Int32.ofNat s.added ∧
      (s.br.tail - s.head).toNat + s.added < 2 ^ c.logEntries))
  | .advance count => inferInstanceAs (Decidable (count = Int32.ofNat s.added))
  | .cqAdvance count => inferInstanceAs (Decidable (count = Int32.ofNat s.added))
  | .consume => inferInstanceAs (Decidable True)

def bufStep (c : BufConf) (s : BufSys) : BufOp → BufSys
  | .add addr len bid off =>
    { s with br := ioUringBufRingAdd s.br addr len bid (ioUringBufRingMask c.ringEntries) off,
             added := s.added + 1 }
  | .advance count => { s with br := ioUringBufRingAdvance s.br count, added := 0 }
  | .cqAdvance count =>
    let r := ioUringBufRingCqAdvance s.cq s.br count
    { s with cq := r.1, br := r.2, added := 0 }
  | .consume => if s.head ≠ s.br.tail then { s with head := s.head + 1 } else s

/-- What the application adds in a step. -/
def bufAdded (_s : BufSys) : BufOp → List (U64 × U32 × U16)
  | .add addr len bid _ => [(addr, len, bid)]
  | _ => []

/-- What the kernel obtains in a step. -/
def bufKernelReads (c : BufConf) (s : BufSys) : BufOp → List (U64 × U32 × U16)
  | .consume => if s.head ≠ s.br.tail then [s.br.entries (kernelBufSlot c s.head)] else []
  | _ => []

/-- The abstract actions: an add stages a buffer, an advance publishes, the kernel takes. -/
def bufLabel (s : BufSys) : BufOp → List (Act (U64 × U32 × U16))
  | .add addr len bid _ => [.stage (addr, len, bid)]
  | .advance _ => [.publish]
  | .cqAdvance _ => [.publish]
  | .consume => [.take (if s.head ≠ s.br.tail then 1 else 0)]

/-- The ring as a staged FIFO of `(addr, len, bid)` triples. -/
def bufView (c : BufConf) (s : BufSys) : Staged (U64 × U32 × U16) :=
  ⟨window (fun p => s.br.entries (c.posSlot p)) s.head.toNat (s.br.tail - s.head).toNat,
   window (fun p => s.br.entries (c.posSlot p)) s.br.tail.toNat s.added⟩

/-- The published and the held buffers fit in the ring. -/
structure BufInv (c : BufConf) (s : BufSys) : Prop where
  fits : (s.br.tail - s.head).toNat + s.added ≤ 2 ^ c.logEntries

theorem bufInit_inv (c : BufConf) (cq : CqState) (mem : IoUringBufRing) : BufInv c (bufInit cq mem) :=
  ⟨by simp [bufInit]⟩

@[simp] theorem bufView_init (c : BufConf) (cq : CqState) (mem : IoUringBufRing) :
    bufView c (bufInit cq mem) = ⟨[], []⟩ := by
  simp [bufView, bufInit]

/-! ### One step -/

section
variable {c : BufConf} {s : BufSys}

/-- An advance by the number of buffers added publishes them all. -/
theorem advance_published (hs : BufInv c s) :
    (s.br.tail + BitVec.ofNat 16 s.added - s.head).toNat = (s.br.tail - s.head).toNat + s.added :=
  toNat_add_sub (by have := hs.fits; have := c.two_pow_log_le; omega)

/-- The queue's end and the tail address the same buffers. -/
theorem window_tail (rd : U32 → U64 × U32 × U16) (n : Nat) :
    window (fun p => rd (c.posSlot p)) (s.head.toNat + (s.br.tail - s.head).toNat) n =
      window (fun p => rd (c.posSlot p)) s.br.tail.toNat n := by
  apply window_congr
  intro j _
  rw [c.posSlot_sub_add s.br.tail s.head j]

theorem bufView_add (hs : BufInv c s) {addr : U64} {len : U32} {bid : U16}
    (hroom : (s.br.tail - s.head).toNat + s.added < 2 ^ c.logEntries) :
    bufView c (bufStep c s (.add addr len bid (Int32.ofNat s.added))) =
      (bufView c s).run [.stage (addr, len, bid)] := by
  have hd := hs.fits
  have hslot := c.addSlot_eq s.br.tail s.added
  simp only [bufStep, bufView, ioUringBufRingAdd_tail, ioUringBufRingAdd_entries, hslot, Staged.run_cons,
    Staged.act_stage, Staged.run_nil, Staged.mk.injEq]
  constructor
  · -- the new buffer lies past the queue's end: `d + added < 2^k` positions from the head
    apply window_update_of_ne
    intro j hj
    rw [c.posSlot_sub_add s.br.tail s.head s.added, Nat.add_assoc]
    exact c.posSlot_ne (by omega) hroom (by omega)
  · apply window_push
    intro j hj
    exact c.posSlot_ne (by omega) (by omega) (by omega)

theorem bufView_publish (hs : BufInv c s) (br' : IoUringBufRing) (htail : br'.tail = s.br.tail + BitVec.ofNat 16 s.added)
    (hent : br'.entries = s.br.entries) :
    bufView c { s with br := br', added := 0 } = (bufView c s).run [.publish] := by
  simp only [bufView, htail, hent, Staged.run_cons, Staged.act_publish, Staged.run_nil, window_zero,
    Staged.mk.injEq, and_true]
  rw [advance_published hs, window_add, window_tail]

theorem bufView_consume (hne : s.head ≠ s.br.tail) :
    bufView c { s with head := s.head + 1 } = (bufView c s).run [.take 1] := by
  have hd : (s.br.tail - s.head).toNat ≠ 0 := fun h0 =>
    hne (sub_eq_zero.1 (BitVec.eq_of_toNat_eq (by simpa using h0))).symm
  have h1 : (1 : U16) = BitVec.ofNat 16 1 := rfl
  have hh : (s.head + 1).toNat = (s.head.toNat + 1) % 2 ^ 16 := by rw [h1, toNat_add_ofNat]
  simp only [bufView, Staged.run_cons, Staged.act_take, Staged.run_nil, Staged.mk.injEq, and_true]
  rw [drop_window _ _ (by omega), hh, window_mod (fun p => congrArg s.br.entries (c.posSlot_mod p)), h1,
    toNat_sub_add (by omega)]

/-- A consumption takes the buffer at the head, `bufs[head & mask]`, when the ring is not empty. -/
theorem bufKernelReads_consume :
    bufKernelReads c s .consume = (bufView c s).takenBy (bufLabel s .consume) := by
  simp only [bufKernelReads, bufLabel, Staged.takenBy_cons, Staged.taken_take, Staged.takenBy_nil,
    List.append_nil, bufView]
  by_cases hne : s.head ≠ s.br.tail
  · have hd : 1 ≤ (s.br.tail - s.head).toNat := Nat.one_le_iff_ne_zero.2 fun h0 =>
      hne (sub_eq_zero.1 (BitVec.eq_of_toNat_eq (by simpa using h0))).symm
    rw [if_pos hne, if_pos hne, take_window _ _ hd, window_succ, window_zero, c.kernelBufSlot_eq]
  · rw [if_neg hne, if_neg hne, List.take_zero]

theorem bufStep_inv (hs : BufInv c s) (op : BufOp) (hl : bufLegal c s op) : BufInv c (bufStep c s op) := by
  have hfits := hs.fits
  cases op with
  | add addr len bid off =>
    obtain ⟨-, hroom⟩ := hl
    exact ⟨by simp only [bufStep, ioUringBufRingAdd_tail]; omega⟩
  | advance count =>
    subst hl
    refine ⟨?_⟩
    simp only [bufStep, ioUringBufRingAdvance_ofNat, advance_published hs]
    omega
  | cqAdvance count =>
    subst hl
    refine ⟨?_⟩
    simp only [bufStep, ioUringBufRingCqAdvance_ring, ioUringBufRingAdvance_ofNat, advance_published hs]
    omega
  | consume =>
    simp only [bufStep]
    by_cases hne : s.head ≠ s.br.tail
    · rw [if_pos hne]
      have h1 : (1 : U16) = BitVec.ofNat 16 1 := rfl
      refine ⟨?_⟩
      -- the kernel's head moves one position towards the tail
      have hd : (s.br.tail - (s.head + BitVec.ofNat 16 1)).toNat = (s.br.tail - s.head).toNat - 1 :=
        toNat_sub_add (Nat.one_le_iff_ne_zero.2 fun h0 =>
          hne (sub_eq_zero.1 (BitVec.eq_of_toNat_eq (by simpa using h0))).symm)
      simp only [h1, hd]
      omega
    · rwa [if_neg hne]

theorem bufStep_view (hs : BufInv c s) (op : BufOp) (hl : bufLegal c s op) :
    bufView c (bufStep c s op) = (bufView c s).run (bufLabel s op) := by
  cases op with
  | add addr len bid off =>
    obtain ⟨rfl, hroom⟩ := hl
    exact bufView_add hs hroom
  | advance count =>
    subst hl
    exact bufView_publish hs _ (ioUringBufRingAdvance_ofNat _ _) (ioUringBufRingAdvance_entries _ _)
  | cqAdvance count =>
    subst hl
    exact bufView_publish hs _ (ioUringBufRingAdvance_ofNat _ _) (ioUringBufRingAdvance_entries _ _)
  | consume =>
    simp only [bufStep, bufLabel]
    by_cases hne : s.head ≠ s.br.tail
    · rw [if_pos hne, if_pos hne]
      exact bufView_consume hne
    · rw [if_neg hne, if_neg hne]
      simp

theorem bufStep_reads (op : BufOp) :
    bufKernelReads c s op = (bufView c s).takenBy (bufLabel s op) := by
  cases op with
  | consume => exact bufKernelReads_consume
  | _ => rfl

theorem bufStep_added (op : BufOp) : bufAdded s op = (bufView c s).stagedBy (bufLabel s op) := by
  cases op <;> rfl

/-- The application never overwrites a buffer it has added. -/
theorem bufLabel_not_edit (op : BufOp) : ∀ a ∈ bufLabel s op, a.isEdit = false := by
  cases op <;> simp [bufLabel, Act.isEdit]

end

/-- **The staged FIFO law of the buffer ring**, from any state that fits: what was queued and
held, followed by every buffer added, is every buffer the kernel took followed by what is still
queued and held. -/
theorem bufRun_conservation (c : BufConf) (s : BufSys) (hs : BufInv c s) (ops : List BufOp)
    (hl : Legal (bufStep c) (bufLegal c) s ops) :
    (bufView c s).queue ++ (bufView c s).held ++ trace (bufStep c) bufAdded s ops =
      trace (bufStep c) (bufKernelReads c) s ops ++ (bufView c (run (bufStep c) s ops)).queue ++
        (bufView c (run (bufStep c) s ops)).held :=
  refines_staged (BufInv c) (bufView c) bufLabel bufAdded (bufKernelReads c)
    (fun _ op h hl => bufStep_inv h op hl) (fun _ op h hl => bufStep_view h op hl)
    (fun _ op _ _ => bufStep_added op) (fun _ op _ _ => bufStep_reads op)
    (fun _ op _ _ => bufLabel_not_edit op) s ops hs hl

theorem buf_ring_lossless_fifo (c : BufConf) (cq : CqState) (mem : IoUringBufRing) (ops : List BufOp)
    (hl : Legal (bufStep c) (bufLegal c) (bufInit cq mem) ops) :
    (∀ n, BufInv c (run (bufStep c) (bufInit cq mem) (ops.take n))) ∧
    bufView c (run (bufStep c) (bufInit cq mem) ops) =
      Staged.run ⟨[], []⟩ (trace (bufStep c) bufLabel (bufInit cq mem) ops) ∧
    trace (bufStep c) bufAdded (bufInit cq mem) ops =
      trace (bufStep c) (bufKernelReads c) (bufInit cq mem) ops ++
        (bufView c (run (bufStep c) (bufInit cq mem) ops)).queue ++
        (bufView c (run (bufStep c) (bufInit cq mem) ops)).held ∧
    (∀ (br : IoUringBufRing) addr len bid mask bufOffset,
      (ioUringBufRingAdd br addr len bid mask bufOffset).tail = br.tail) := by
  have hs := bufInit_inv c cq mem
  have hrun := view_run_of_step (BufInv c) (bufView c) Staged.run (fun _ => rfl) Staged.run_append bufLabel
    (fun _ op h hl => bufStep_inv h op hl) (fun _ op h hl => bufStep_view h op hl) _ ops hs hl
  have hlaw := bufRun_conservation c _ hs ops hl
  rw [bufView_init] at hrun hlaw
  refine ⟨ run_invariant_prefix (BufInv c) (fun _ op h hl => bufStep_inv h op hl) _ ops hs hl, hrun, ?_,
    fun br addr len bid mask bufOffset => ioUringBufRingAdd_tail br addr len bid mask bufOffset⟩
  simpa using hlaw

/-- A two-entry ring: two buffers added and published, one taken, a third added and published
with the CQ, both taken. -/
def bufConfTwo : BufConf := ⟨2, 1, by decide, rfl⟩

def bufRunTwo : List BufOp :=
  [.add 10 1 0 0, .add 20 2 1 1, .advance 2, .consume, .add 30 3 2 0, .cqAdvance 1, .consume, .consume]

theorem buf_ring_lossless_fifo_two :
    Legal (bufStep bufConfTwo) (bufLegal bufConfTwo) (bufInit ⟨0, 0, fun _ => ⟨0, 0, 0⟩⟩ ⟨fun _ => ⟨0, 0, 0, 0⟩⟩)
        bufRunTwo ∧
      trace (bufStep bufConfTwo) (bufKernelReads bufConfTwo)
        (bufInit ⟨0, 0, fun _ => ⟨0, 0, 0⟩⟩ ⟨fun _ => ⟨0, 0, 0, 0⟩⟩) bufRunTwo = [(10, 1, 0), (20, 2, 1), (30, 3, 2)] := by
  have hl : Legal (bufStep bufConfTwo) (bufLegal bufConfTwo)
      (bufInit ⟨0, 0, fun _ => ⟨0, 0, 0⟩⟩ ⟨fun _ => ⟨0, 0, 0, 0⟩⟩) bufRunTwo := by decide
  refine ⟨hl, ?_⟩
  have h := (buf_ring_lossless_fifo bufConfTwo _ _ bufRunTwo hl).2.2.1
  have hadded : trace (bufStep bufConfTwo) bufAdded (bufInit ⟨0, 0, fun _ => ⟨0, 0, 0⟩⟩ ⟨fun _ => ⟨0, 0, 0, 0⟩⟩)
      bufRunTwo = [(10, 1, 0), (20, 2, 1), (30, 3, 2)] := by decide
  have hend : bufView bufConfTwo (run (bufStep bufConfTwo)
      (bufInit ⟨0, 0, fun _ => ⟨0, 0, 0⟩⟩ ⟨fun _ => ⟨0, 0, 0, 0⟩⟩) bufRunTwo) = ⟨[], []⟩ := by decide
  rw [hadded, hend] at h
  simpa using h.symm

/-! ## Counting what is available -/

/-- Add a buffer at offset 0 and publish it. -/
def bufPublishOne : List BufOp := [.add 0 0 0 0, .advance 1]

/-- One round through an empty ring: publish a buffer, let the kernel take it. -/
def bufRound : List BufOp := bufPublishOne ++ [.consume]

/-- Publishing one buffer into an empty ring moves the tail by one. -/
theorem bufPublishOne_spec (c : BufConf) (s : BufSys) (hadd : s.added = 0) (hempty : s.head = s.br.tail) :
    Legal (bufStep c) (bufLegal c) s bufPublishOne ∧ (run (bufStep c) s bufPublishOne).added = 0 ∧
      (run (bufStep c) s bufPublishOne).head = s.head ∧
      (run (bufStep c) s bufPublishOne).br.tail = s.br.tail + 1 := by
  have htail : (run (bufStep c) s bufPublishOne).br.tail = s.br.tail + 1 := by
    have h := ioUringBufRingAdvance_ofNat (ioUringBufRingAdd s.br 0 0 0 (ioUringBufRingMask c.ringEntries) 0) 1
    rw [ioUringBufRingAdd_tail] at h
    exact h
  refine ⟨⟨⟨by rw [hadd]; rfl, ?_⟩, by simp only [bufStep, hadd]; rfl, trivial⟩, rfl, rfl, htail⟩
  -- the add finds the ring empty
  rw [hempty, hadd, BitVec.sub_self]
  exact Nat.two_pow_pos _

/-- A round moves the tail and the kernel's head by one, and leaves the ring empty. -/
theorem bufRound_spec (c : BufConf) (s : BufSys) (hadd : s.added = 0) (hempty : s.head = s.br.tail) :
    Legal (bufStep c) (bufLegal c) s bufRound ∧ (run (bufStep c) s bufRound).added = 0 ∧
      (run (bufStep c) s bufRound).head = s.head + 1 ∧ (run (bufStep c) s bufRound).br.tail = s.br.tail + 1 := by
  obtain ⟨hl, ha, hh, ht⟩ := bufPublishOne_spec c s hadd hempty
  generalize ht0 : run (bufStep c) s bufPublishOne = t at hl ha hh ht
  have hne : t.head ≠ t.br.tail := by
    rw [hh, ht, hempty]
    exact fun h => by simpa using congrArg (· - s.br.tail) h
  have hrun : run (bufStep c) s bufRound = { t with head := t.head + 1 } := by
    rw [bufRound, run_append, ht0]
    exact if_pos hne
  rw [hrun, bufRound, legal_append, ht0]
  exact ⟨⟨hl, trivial, trivial⟩, ha, by rw [hh], ht⟩

theorem bufRounds_spec (c : BufConf) (n : Nat) : ∀ s : BufSys, s.added = 0 → s.head = s.br.tail →
    Legal (bufStep c) (bufLegal c) s (List.replicate n bufRound).flatten ∧
      (run (bufStep c) s (List.replicate n bufRound).flatten).added = 0 ∧
      (run (bufStep c) s (List.replicate n bufRound).flatten).head = s.head + BitVec.ofNat 16 n ∧
      (run (bufStep c) s (List.replicate n bufRound).flatten).br.tail = s.br.tail + BitVec.ofNat 16 n := by
  induction n with
  | zero => intro s hadd _; simp [Legal, hadd]
  | succ n ih =>
    intro s hadd hempty
    obtain ⟨hl1, ha1, hh1, ht1⟩ := bufRound_spec c s hadd hempty
    obtain ⟨hl2, ha2, hh2, ht2⟩ := ih _ ha1 (by rw [hh1, ht1, hempty])
    have hsucc : ∀ x : U16, x + 1 + BitVec.ofNat 16 n = x + BitVec.ofNat 16 (n + 1) := fun x => by
      apply BitVec.eq_of_toNat_eq
      simp
      omega
    rw [List.replicate_succ, List.flatten_cons, legal_append, run_append]
    exact ⟨⟨hl1, hl2⟩, ha2, by rw [hh2, hh1, hsucc], by rw [ht2, ht1, hsucc]⟩

/-- The ring of one buffer. -/
def bufConfOne : BufConf := ⟨1, 0, by decide, rfl⟩

/-- 65536 buffers through the ring of one: after 65535 rounds a last buffer is published, the
16-bit tail wraps to 0 and the kernel's head stays at 65535. -/
def bufWrapRun : List BufOp := (List.replicate 65535 bufRound).flatten ++ bufPublishOne

theorem buf_ring_available_wraps (cq : CqState) (mem : IoUringBufRing) :
    (∀ (br : IoUringBufRing) (head : U16),
      (ioUringBufRingAvailable br 0 (head.setWidth 32)).toInt = (br.tail.toNat : Int) - head.toNat) ∧
    Legal (bufStep bufConfOne) (bufLegal bufConfOne) (bufInit cq mem) bufWrapRun ∧
    (bufView bufConfOne (run (bufStep bufConfOne) (bufInit cq mem) bufWrapRun)).queue.length = 1 ∧
    ioUringBufRingAvailable (run (bufStep bufConfOne) (bufInit cq mem) bufWrapRun).br 0
      ((run (bufStep bufConfOne) (bufInit cq mem) bufWrapRun).head.setWidth 32) = -65535 := by
  have h0 : (bufInit cq mem).br.tail = 0 := ioUringBufRingInit_tail mem
  have hh0 : (bufInit cq mem).head = 0 := rfl
  obtain ⟨hl, ha, hh, ht⟩ := bufRounds_spec bufConfOne 65535 (bufInit cq mem) rfl (hh0.trans h0.symm)
  rw [h0] at ht
  rw [hh0] at hh
  -- 65535 rounds leave both counters at 65535; the last publish wraps the tail to 0
  obtain ⟨hl', -, hh', ht'⟩ := bufPublishOne_spec bufConfOne _ ha (by rw [hh, ht])
  rw [bufWrapRun, legal_append, run_append]
  refine ⟨ioUringBufRingAvailable_toInt, ⟨hl, hl'⟩, ?_, ?_⟩
  · rw [bufView, length_window, ht', hh', ht, hh]
    decide
  · rw [ioUringBufRingAvailable, if_neg (by decide), ht', hh', ht, hh]
    decide

end Liburing
