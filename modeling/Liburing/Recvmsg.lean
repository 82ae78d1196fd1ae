import Liburing.Defs
import Liburing.Vm.Regions
import Mathlib.Data.List.Chain
/-!
# The `io_uring_recvmsg_out` accessors (liburing.h:831-894)

| here | there |
| --- | --- |
| `Msghdr` | the fields `msg_namelen`, `msg_controllen` of `struct msghdr` |
| `RecvmsgBuf` | what the accessors read from the buffer: `o->controllen` and each `cmsg->cmsg_len` |
| `ioUringRecvmsgValidate`, `ioUringRecvmsgName`, `ioUringRecvmsgCmsgFirsthdr`, `ioUringRecvmsgCmsgNexthdr`, `ioUringRecvmsgPayload`, `ioUringRecvmsgPayloadLength` | the functions of the same name |
| `CMSG_ALIGN` | `<bits/socket.h>`: `(len + sizeof(size_t) - 1) & ~(sizeof(size_t) - 1)` |
| `cmsgWalk`, `cmsgAfter` | `for (c = firsthdr(o, msgh); c; c = nexthdr(o, msgh, c))`: the headers visited, and where `n` steps lead |

A multishot recvmsg buffer is a 16-byte `struct io_uring_recvmsg_out`, the name
(`msg_namelen` bytes), the control messages (`msg_controllen` bytes, of which the kernel fills
`o->controllen`) and the payload. Pointers are `unsigned long`, so every sum wraps modulo
`2 ^ 64`; a `cmsg_len` is read from the buffer and is untrusted.

When nothing wraps (`RecvmsgOk`) the accessors stay in the buffer and the walk over the control
messages moves forward by at least one header each step and ends (`recvmsg_accessors_stay_in_buffer`).
A `cmsg_len` within 7 of `2 ^ 64` aligns to 0, and `io_uring_recvmsg_cmsg_nexthdr` then returns
the header it was given, forever (`recvmsg_walk_repeats`).
-/
set_option linter.style.nameCheck false

namespace Liburing

open AddrSpace

/-- The fields of `struct msghdr` the accessors read: `socklen_t msg_namelen`,
`size_t msg_controllen`. -/
structure Msghdr where
  msgNamelen : U32
  msgControllen : U64
deriving DecidableEq, Repr

/-- The buffer as the accessors read it: `o->controllen`, and the `cmsg_len` of the
`struct cmsghdr` at each address. -/
structure RecvmsgBuf where
  controllen : U32
  cmsgLen : U64 → U64

/-- `io_uring_recvmsg_validate`: the out-header, when `buf_len` holds the header, the name and the
control messages. -/
def ioUringRecvmsgValidate (buf : U64) (bufLen : Int32) (msgh : Msghdr) : Option U64 :=
  -- `sizeof(struct io_uring_recvmsg_out)` is 16
  let header : U64 := msgh.msgControllen + msgh.msgNamelen.setWidth 64 + 16
  if bufLen < 0 ∨ bufLen.toBitVec.signExtend 64 < header then none else some buf

/-- `io_uring_recvmsg_name`: `&o[1]`. -/
def ioUringRecvmsgName (o : U64) : U64 := o + 16

/-- `io_uring_recvmsg_cmsg_firsthdr`; `sizeof(struct cmsghdr)` is 16. -/
def ioUringRecvmsgCmsgFirsthdr (b : RecvmsgBuf) (o : U64) (msgh : Msghdr) : Option U64 :=
  if b.controllen.setWidth 64 < 16 then none else some (ioUringRecvmsgName o + msgh.msgNamelen.setWidth 64)

/-- `CMSG_ALIGN` on LP64. -/
def CMSG_ALIGN (len : U64) : U64 := (len + 8 - 1) &&& ~~~(8 - 1)

/-- `io_uring_recvmsg_cmsg_nexthdr`. -/
def ioUringRecvmsgCmsgNexthdr (b : RecvmsgBuf) (o : U64) (msgh : Msghdr) (cmsg : U64) : Option U64 :=
  if b.cmsgLen cmsg < 16 then none
  else
    -- `end`; a `NULL` first header is address 0
    let endPtr := (ioUringRecvmsgCmsgFirsthdr b o msgh).getD 0 + b.controllen.setWidth 64
    let cmsg := cmsg + CMSG_ALIGN (b.cmsgLen cmsg)
    if cmsg + 16 > endPtr then none
    -- the length read here is the next header's
    else if cmsg + CMSG_ALIGN (b.cmsgLen cmsg) > endPtr then none
    else some cmsg

/-- `io_uring_recvmsg_payload`. -/
def ioUringRecvmsgPayload (o : U64) (msgh : Msghdr) : U64 :=
  ioUringRecvmsgName o + msgh.msgNamelen.setWidth 64 + msgh.msgControllen

/-- `io_uring_recvmsg_payload_length`: `(unsigned int) (payload_end - payload_start)`. -/
def ioUringRecvmsgPayloadLength (o : U64) (bufLen : Int32) (msgh : Msghdr) : U32 :=
  let payloadStart := ioUringRecvmsgPayload o msgh
  let payloadEnd := o + bufLen.toBitVec.signExtend 64
  (payloadEnd - payloadStart).setWidth 32

/-- The headers a loop `for (c = first; c; c = nexthdr(o, msgh, c))` visits in `n` steps. -/
def cmsgWalk (b : RecvmsgBuf) (o : U64) (msgh : Msghdr) : Nat → Option U64 → List U64
  | 0, _ => []
  | _ + 1, none => []
  | n + 1, some c => c :: cmsgWalk b o msgh n (ioUringRecvmsgCmsgNexthdr b o msgh c)

/-- Where the loop is after `n` steps; `none` once it has ended. -/
def cmsgAfter (b : RecvmsgBuf) (o : U64) (msgh : Msghdr) : Nat → Option U64 → Option U64
  | 0, c => c
  | n + 1, c => cmsgAfter b o msgh n (c.bind (ioUringRecvmsgCmsgNexthdr b o msgh))

/-! ## Arithmetic that does not wrap -/

theorem CMSG_ALIGN_toNat (len : U64) (h : len.toNat < 2 ^ 32) : (CMSG_ALIGN len).toNat = roundUp len.toNat 8 := by
  have h8 : (8 : U64).toNat = 8 := rfl
  rw [CMSG_ALIGN, alignUp_toNat len 8 (k := 3) rfl (by omega), h8]

/-- A non-negative `int` converted to `unsigned long` keeps its value. -/
theorem toNat_signExtend_of_nonneg (x : Int32) (h : ¬ x < 0) :
    (x.toBitVec.signExtend 64).toNat = x.toInt.toNat := by
  have h0 : 0 ≤ x.toInt := by
    rw [Int32.lt_iff_toInt_lt] at h
    simpa using h
  -- a non-negative `int` has its top bit clear
  have hx : 2 * x.toBitVec.toNat < 2 ^ 32 := by
    have := BitVec.toInt_eq_toNat_cond x.toBitVec
    rw [Int32.toInt_toBitVec] at this
    split at this <;> omega
  rw [toNat_signExtend_of_two_mul_lt _ hx (by omega), ← Int32.toInt_toBitVec, BitVec.toInt_eq_toNat_of_lt hx,
    Int.toNat_natCast]

/-- What the accessors may assume of a buffer the kernel filled: it wrote at most
`msg_controllen` bytes of control messages, with 32-bit lengths; and what nothing wrapping means:
the header size fits `unsigned long`, and the buffer lies in the lower half of the address space. -/
structure RecvmsgOk (b : RecvmsgBuf) (buf : U64) (bufLen : Int32) (msgh : Msghdr) : Prop where
  controllen_le : b.controllen.toNat ≤ msgh.msgControllen.toNat
  header_lt : msgh.msgControllen.toNat + msgh.msgNamelen.toNat + 16 < 2 ^ 64
  buf_low : buf.toNat + bufLen.toInt.toNat ≤ 2 ^ 63
  cmsgLen_lt : ∀ a, (b.cmsgLen a).toNat < 2 ^ 32

section
variable {b : RecvmsgBuf} {buf : U64} {bufLen : Int32} {msgh : Msghdr}

/-- A validated buffer holds its header, name and control messages. -/
theorem validate_some {o : U64} (hv : ioUringRecvmsgValidate buf bufLen msgh = some o)
    (hh : msgh.msgControllen.toNat + msgh.msgNamelen.toNat + 16 < 2 ^ 64) :
    o = buf ∧ msgh.msgControllen.toNat + msgh.msgNamelen.toNat + 16 ≤ bufLen.toInt.toNat := by
  unfold ioUringRecvmsgValidate at hv
  dsimp only at hv
  split at hv
  · cases hv
  · rename_i hfit
    cases hv
    refine ⟨rfl, ?_⟩
    have hnn : ¬ bufLen < 0 := fun h => hfit (.inl h)
    have hle := BitVec.not_lt.1 fun h => hfit (.inr h)
    rw [BitVec.le_def, toNat_signExtend_of_nonneg bufLen hnn] at hle
    have hN := msgh.msgNamelen.isLt
    have h16 : (16 : U64).toNat = 16 := rfl
    rw [BitVec.toNat_add, BitVec.toNat_add, BitVec.toNat_setWidth, h16] at hle
    rw [Nat.mod_eq_of_lt (by omega), Nat.mod_eq_of_lt (by omega), Nat.mod_eq_of_lt (by omega)] at hle
    exact hle

/-- The name follows the out-header, the payload follows the name and the control messages, and
the payload runs to the end of the buffer. -/
theorem payload_spec {o : U64} (hv : ioUringRecvmsgValidate buf bufLen msgh = some o) (hok : RecvmsgOk b buf bufLen msgh) :
    (ioUringRecvmsgName o).toNat = buf.toNat + 16 ∧
      (ioUringRecvmsgName o + msgh.msgNamelen.setWidth 64).toNat = buf.toNat + 16 + msgh.msgNamelen.toNat ∧
      (ioUringRecvmsgPayload o msgh).toNat = buf.toNat + 16 + msgh.msgNamelen.toNat + msgh.msgControllen.toNat ∧
      (ioUringRecvmsgPayload o msgh + (ioUringRecvmsgPayloadLength o bufLen msgh).setWidth 64).toNat =
        buf.toNat + bufLen.toInt.toNat := by
  obtain ⟨rfl, hfit⟩ := validate_some hv hok.header_lt
  have hlow := hok.buf_low
  have hN := msgh.msgNamelen.isLt
  have hlen := bufLen.toInt_lt
  have h16 : (16 : U64).toNat = 16 := rfl
  have hname : (ioUringRecvmsgName o).toNat = o.toNat + 16 := by
    rw [ioUringRecvmsgName, BitVec.toNat_add_of_lt (by omega), h16]
  have hfirst : (ioUringRecvmsgName o + msgh.msgNamelen.setWidth 64).toNat = o.toNat + 16 + msgh.msgNamelen.toNat := by
    rw [BitVec.toNat_add_of_lt (by rw [hname, BitVec.toNat_setWidth, Nat.mod_eq_of_lt (by omega)]; omega), hname,
      BitVec.toNat_setWidth, Nat.mod_eq_of_lt (by omega)]
  have hpay : (ioUringRecvmsgPayload o msgh).toNat = o.toNat + 16 + msgh.msgNamelen.toNat + msgh.msgControllen.toNat := by
    rw [ioUringRecvmsgPayload, BitVec.toNat_add_of_lt (by omega), hfirst]
  -- `payload_end - payload_start` is what is left of the buffer, less than `2 ^ 31`
  have hnn : ¬ bufLen < 0 := by
    rw [Int32.lt_iff_toInt_lt]
    simp only [Int32.toInt_zero, not_lt]
    omega
  have hend : (o + bufLen.toBitVec.signExtend 64).toNat = o.toNat + bufLen.toInt.toNat := by
    rw [BitVec.toNat_add_of_lt (by rw [toNat_signExtend_of_nonneg bufLen hnn]; omega), toNat_signExtend_of_nonneg bufLen hnn]
  have hrest : (o + bufLen.toBitVec.signExtend 64 - ioUringRecvmsgPayload o msgh).toNat =
      bufLen.toInt.toNat - (16 + msgh.msgNamelen.toNat + msgh.msgControllen.toNat) := by
    rw [BitVec.toNat_sub_of_le (by rw [BitVec.le_def, hpay, hend]; omega), hpay, hend]
    omega
  have hlen32 : ((ioUringRecvmsgPayloadLength o bufLen msgh).setWidth 64).toNat =
      bufLen.toInt.toNat - (16 + msgh.msgNamelen.toNat + msgh.msgControllen.toNat) := by
    rw [ioUringRecvmsgPayloadLength, BitVec.toNat_setWidth, BitVec.toNat_setWidth, hrest,
      Nat.mod_eq_of_lt (by omega), Nat.mod_eq_of_lt (by omega)]
  refine ⟨hname, hfirst, hpay, ?_⟩
  rw [BitVec.toNat_add_of_lt (by rw [hpay, hlen32]; omega), hpay, hlen32]
  omega

end

/-! ## The walk over the control messages -/

section
variable {b : RecvmsgBuf} {o : U64} {msgh : Msghdr} {c0 : U64}

/-- One step of the walk, from a header that fits before `end`: the next header, if any, starts at
least one header later and fits before `end` too. -/
theorem nexthdr_step (hfirst : ioUringRecvmsgCmsgFirsthdr b o msgh = some c0)
    (hend : c0.toNat + b.controllen.toNat ≤ 2 ^ 63) (hlen : ∀ a, (b.cmsgLen a).toNat < 2 ^ 32) {c c' : U64}
    (hc : c.toNat + 16 ≤ c0.toNat + b.controllen.toNat) (h : ioUringRecvmsgCmsgNexthdr b o msgh c = some c') :
    c.toNat + 16 ≤ c'.toNat ∧ c'.toNat + 16 ≤ c0.toNat + b.controllen.toNat := by
  have h16 : (16 : U64).toNat = 16 := rfl
  have hC := b.controllen.isLt
  have hendp : (c0 + b.controllen.setWidth 64).toNat = c0.toNat + b.controllen.toNat := by
    rw [BitVec.toNat_add_of_lt (by rw [BitVec.toNat_setWidth, Nat.mod_eq_of_lt (by omega)]; omega),
      BitVec.toNat_setWidth, Nat.mod_eq_of_lt (by omega)]
  unfold ioUringRecvmsgCmsgNexthdr at h
  rw [hfirst, Option.getD_some] at h
  by_cases hshort : b.cmsgLen c < 16
  · rw [if_pos hshort] at h
    cases h
  rw [if_neg hshort] at h
  dsimp only at h
  -- the step is `cmsg_len` rounded up to 8, at least one header and no wrap
  have hl := hlen c
  have hl16 : 16 ≤ (b.cmsgLen c).toNat := by
    have := BitVec.not_lt.1 hshort
    rw [BitVec.le_def, h16] at this
    exact this
  have halign := CMSG_ALIGN_toNat (b.cmsgLen c) hl
  have hup := le_roundUp (b.cmsgLen c).toNat (g := 8) (by decide)
  have hup' := roundUp_lt (b.cmsgLen c).toNat (g := 8) (by decide)
  have hnext : (c + CMSG_ALIGN (b.cmsgLen c)).toNat = c.toNat + roundUp (b.cmsgLen c).toNat 8 := by
    rw [BitVec.toNat_add_of_lt (by omega), halign]
  by_cases hover : c + CMSG_ALIGN (b.cmsgLen c) + 16 > c0 + b.controllen.setWidth 64
  · rw [if_pos hover] at h
    cases h
  rw [if_neg hover] at h
  have hfits := BitVec.not_lt.1 hover
  rw [BitVec.le_def, hendp, BitVec.toNat_add_of_lt (by omega), hnext, h16] at hfits
  split at h
  · cases h
  · cases h
    omega

theorem cmsgAfter_none (n : Nat) : cmsgAfter b o msgh n none = none := by
  induction n with
  | zero => rfl
  | succ n ih => exact ih

theorem cmsgWalk_none (n : Nat) : cmsgWalk b o msgh n none = [] := by
  cases n <;> rfl

/-- The first header follows the name, when there is room for one. -/
theorem firsthdr_some (h : ioUringRecvmsgCmsgFirsthdr b o msgh = some c0) :
    c0 = ioUringRecvmsgName o + msgh.msgNamelen.setWidth 64 ∧ 16 ≤ b.controllen.toNat := by
  unfold ioUringRecvmsgCmsgFirsthdr at h
  split at h
  · cases h
  · rename_i hroom
    cases h
    refine ⟨rfl, ?_⟩
    have := BitVec.not_lt.1 hroom
    rw [BitVec.le_def, BitVec.toNat_setWidth, Nat.mod_eq_of_lt (by have := b.controllen.isLt; omega)] at this
    exact this

/-- A header that is its own successor is never left. -/
theorem cmsgAfter_fixed {c : U64} (h : ioUringRecvmsgCmsgNexthdr b o msgh c = some c) :
    ∀ n, cmsgAfter b o msgh n (some c) = some c
  | 0 => rfl
  | n + 1 => by
    rw [cmsgAfter, Option.bind_some, h]
    exact cmsgAfter_fixed h n

theorem cmsgWalk_head? (n : Nat) (c : U64) : ∀ x ∈ (cmsgWalk b o msgh n (some c)).head?, x = c := by
  cases n <;> simp [cmsgWalk]

section
variable (hfirst : ioUringRecvmsgCmsgFirsthdr b o msgh = some c0)
  (hend : c0.toNat + b.controllen.toNat ≤ 2 ^ 63) (hlen : ∀ a, (b.cmsgLen a).toNat < 2 ^ 32)
include hfirst hend hlen

/-- Every header the walk visits from `c` lies between `c` and `end`. -/
theorem cmsgWalk_bounds : ∀ (n : Nat) (c : U64), c.toNat + 16 ≤ c0.toNat + b.controllen.toNat →
    ∀ x ∈ cmsgWalk b o msgh n (some c), c.toNat ≤ x.toNat ∧ x.toNat + 16 ≤ c0.toNat + b.controllen.toNat
  | 0, _, _, _, hx => by simp [cmsgWalk] at hx
  | n + 1, c, hc, x, hx => by
    rw [cmsgWalk, List.mem_cons] at hx
    rcases hx with rfl | hx
    · exact ⟨le_rfl, hc⟩
    cases hn : ioUringRecvmsgCmsgNexthdr b o msgh c with
    | none =>
      rw [hn] at hx
      cases n <;> simp [cmsgWalk] at hx
    | some c' =>
      rw [hn] at hx
      obtain ⟨hlt, hc'⟩ := nexthdr_step hfirst hend hlen hc hn
      obtain ⟨hge, hx'⟩ := cmsgWalk_bounds n c' hc' x hx
      exact ⟨by omega, hx'⟩

/-- The walk visits strictly increasing addresses. -/
theorem cmsgWalk_chain : ∀ (n : Nat) (c : U64), c.toNat + 16 ≤ c0.toNat + b.controllen.toNat →
    ((cmsgWalk b o msgh n (some c)).map BitVec.toNat).IsChain (· < ·)
  | 0, _, _ => List.IsChain.nil
  | n + 1, c, hc => by
    rw [cmsgWalk]
    cases hn : ioUringRecvmsgCmsgNexthdr b o msgh c with
    | none =>
      cases n
      · exact List.isChain_singleton _
      · exact List.isChain_singleton _
    | some c' =>
      obtain ⟨hlt, hc'⟩ := nexthdr_step hfirst hend hlen hc hn
      rw [List.map_cons, List.isChain_cons]
      refine ⟨fun y hy => ?_, cmsgWalk_chain n c' hc'⟩
      rw [List.head?_map, Option.mem_map] at hy
      obtain ⟨x, hx, rfl⟩ := hy
      rw [cmsgWalk_head? n c' x hx]
      omega

/-- The walk from `c` ends within `(end - c) / 16 + 1` steps. -/
theorem cmsgAfter_ends : ∀ (n : Nat) (c : U64), c.toNat + 16 ≤ c0.toNat + b.controllen.toNat →
    (c0.toNat + b.controllen.toNat - c.toNat) / 16 < n → cmsgAfter b o msgh n (some c) = none
  | 0, _, _, hn => absurd hn (Nat.not_lt_zero _)
  | n + 1, c, hc, hn => by
    rw [cmsgAfter, Option.bind_some]
    cases hnx : ioUringRecvmsgCmsgNexthdr b o msgh c with
    | none => exact cmsgAfter_none n
    | some c' =>
      obtain ⟨hlt, hc'⟩ := nexthdr_step hfirst hend hlen hc hnx
      exact cmsgAfter_ends n c' hc' (by omega)

end

end

/-! ## The accessors on a buffer that does not wrap -/

theorem recvmsg_accessors_stay_in_buffer (b : RecvmsgBuf) (buf : U64) (bufLen : Int32) (msgh : Msghdr) (o : U64)
    (hv : ioUringRecvmsgValidate buf bufLen msgh = some o) (hok : RecvmsgOk b buf bufLen msgh) :
    (ioUringRecvmsgName o).toNat = buf.toNat + 16 ∧
    buf.toNat + 16 ≤ (ioUringRecvmsgPayload o msgh).toNat ∧
    (ioUringRecvmsgPayload o msgh).toNat ≤ buf.toNat + bufLen.toInt.toNat ∧
    (ioUringRecvmsgPayload o msgh + (ioUringRecvmsgPayloadLength o bufLen msgh).setWidth 64).toNat =
      buf.toNat + bufLen.toInt.toNat ∧
    ∀ n, ((cmsgWalk b o msgh n (ioUringRecvmsgCmsgFirsthdr b o msgh)).map BitVec.toNat).IsChain (· < ·) ∧
      (∀ c ∈ cmsgWalk b o msgh n (ioUringRecvmsgCmsgFirsthdr b o msgh),
        buf.toNat + 16 + msgh.msgNamelen.toNat ≤ c.toNat ∧
          c.toNat + 16 ≤ buf.toNat + 16 + msgh.msgNamelen.toNat + b.controllen.toNat) ∧
      (b.controllen.toNat / 16 < n → cmsgAfter b o msgh n (ioUringRecvmsgCmsgFirsthdr b o msgh) = none) := by
  obtain ⟨hname, hfirst, hpay, hsum⟩ := payload_spec hv hok
  obtain ⟨rfl, hfit⟩ := validate_some hv hok.header_lt
  have hctl := hok.controllen_le
  have hlow := hok.buf_low
  refine ⟨hname, by omega, by omega, hsum, fun n => ?_⟩
  cases hf : ioUringRecvmsgCmsgFirsthdr b o msgh with
  | none =>
    rw [cmsgWalk_none, cmsgAfter_none]
    exact ⟨List.IsChain.nil, fun _ hc => absurd hc List.not_mem_nil, fun _ => rfl⟩
  | some c0 =>
    -- the walk starts at the first header and ends at `c0 + o->controllen`, below `2 ^ 63`
    obtain ⟨rfl, h16⟩ := firsthdr_some hf
    have hend : (ioUringRecvmsgName o + msgh.msgNamelen.setWidth 64).toNat + b.controllen.toNat ≤ 2 ^ 63 := by
      omega
    have hc0 : (ioUringRecvmsgName o + msgh.msgNamelen.setWidth 64).toNat + 16 ≤
        (ioUringRecvmsgName o + msgh.msgNamelen.setWidth 64).toNat + b.controllen.toNat := by
      omega
    refine ⟨cmsgWalk_chain hf hend hok.cmsgLen_lt n _ hc0, fun c hc => ?_, fun hn => ?_⟩
    · have := cmsgWalk_bounds hf hend hok.cmsgLen_lt n _ hc0 c hc
      omega
    · exact cmsgAfter_ends hf hend hok.cmsgLen_lt n _ hc0 (by omega)

/-- A buffer with two control messages of 16 bytes each. -/
def twoCmsgs : RecvmsgBuf := ⟨32, fun _ => 16⟩

theorem recvmsg_two_cmsgs_end :
    ioUringRecvmsgValidate 0x10000 64 ⟨0, 32⟩ = some 0x10000 ∧ RecvmsgOk twoCmsgs 0x10000 64 ⟨0, 32⟩ ∧
      cmsgAfter twoCmsgs 0x10000 ⟨0, 32⟩ 3 (ioUringRecvmsgCmsgFirsthdr twoCmsgs 0x10000 ⟨0, 32⟩) = none := by
  have hv : ioUringRecvmsgValidate 0x10000 64 ⟨0, 32⟩ = some 0x10000 := by decide
  have hok : RecvmsgOk twoCmsgs 0x10000 64 ⟨0, 32⟩ := ⟨by decide, by decide, by decide, fun _ => show (16 : U64).toNat < 2 ^ 32 by decide⟩
  exact ⟨hv, hok, ((recvmsg_accessors_stay_in_buffer _ _ _ _ _ hv hok).2.2.2.2 3).2.2 (by decide)⟩

/-! ## Where the arithmetic wraps -/

/-- A buffer whose control message claims `cmsg_len = 2 ^ 64 - 1`. -/
def hugeCmsgLen : RecvmsgBuf := ⟨16, fun _ => BitVec.allOnes 64⟩

theorem recvmsg_walk_repeats :
    ioUringRecvmsgValidate 0x10000 32 ⟨0, 16⟩ = some 0x10000 ∧
    ioUringRecvmsgCmsgFirsthdr hugeCmsgLen 0x10000 ⟨0, 16⟩ = some 0x10010 ∧
    ioUringRecvmsgCmsgNexthdr hugeCmsgLen 0x10000 ⟨0, 16⟩ 0x10010 = some 0x10010 ∧
    (∀ n, cmsgAfter hugeCmsgLen 0x10000 ⟨0, 16⟩ n (some 0x10010) = some 0x10010) ∧
    ioUringRecvmsgValidate 0x10000 0 ⟨0, 0xFFFFFFFFFFFFFFF0⟩ = some 0x10000 ∧
    ioUringRecvmsgPayload 0x10000 ⟨0, 0xFFFFFFFFFFFFFFF0⟩ = 0x10000 := by
  have hnext : ioUringRecvmsgCmsgNexthdr hugeCmsgLen 0x10000 ⟨0, 16⟩ 0x10010 = some 0x10010 := by decide
  exact ⟨by decide, by decide, hnext, cmsgAfter_fixed hnext, by decide, by decide⟩

end Liburing
