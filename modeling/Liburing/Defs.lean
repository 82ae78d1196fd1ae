import Mathlib.Data.BitVec
/-!
# C types and constants (`io_uring.h`, `int_flags.h`, `liburing.h`)

Unsigned C integers are bit vectors of their width (`unsigned`, `__u32` ↦ `U32`, …) so that
wrap-around is the arithmetic of the model; `int` is Lean's `Int32`. Flag and feature bits keep
the macro names of `src/include/liburing/io_uring.h`; a test `x & F` used as a condition is
`hasFlag x F`. Only the constants some modelled function reads are listed.
-/
namespace Liburing

/-- `__u8`. -/
abbrev U8 := BitVec 8
/-- `__u16`, `unsigned short`. -/
abbrev U16 := BitVec 16
/-- `unsigned`, `__u32`. -/
abbrev U32 := BitVec 32
/-- `__u64`, `size_t`, `unsigned long` and pointers (LP64). -/
abbrev U64 := BitVec 64

/-- `x & f` as a C condition. -/
def hasFlag {w : Nat} (x f : BitVec w) : Bool := x &&& f != 0

section
variable {w : Nat}

/-- Setting a flag makes it test true. -/
theorem hasFlag_or_self (x f : BitVec w) (hf : f ≠ 0) : hasFlag (x ||| f) f = true := by
  have e : (x ||| f) &&& f = f := by
    ext i
    simp only [BitVec.getElem_and, BitVec.getElem_or]
    cases x[i] <;> cases f[i] <;> rfl
  rw [hasFlag, e]
  exact bne_iff_ne.2 hf

/-- Setting other bits leaves a flag's test as it was. -/
theorem hasFlag_or_of_disjoint (x f g : BitVec w) (h : g &&& f = 0) : hasFlag (x ||| g) f = hasFlag x f := by
  rw [hasFlag, hasFlag, BitVec.and_or_distrib_right, h]
  congr 1
  exact BitVec.or_zero

/-- A flag tests true in `x ||| y` exactly when it does in `x` or in `y`. -/
theorem hasFlag_or (x y f : BitVec w) : hasFlag (x ||| y) f = (hasFlag x f || hasFlag y f) := by
  rw [hasFlag, hasFlag, hasFlag, BitVec.and_or_distrib_right, Bool.eq_iff_iff]
  simp only [Bool.or_eq_true, bne_iff_ne, ne_eq]
  rw [← not_and_or, not_iff_not]
  exact BitVec.or_eq_zero_iff

/-- Clearing a set of bits clears every flag inside it. -/
theorem hasFlag_and_not (x f g : BitVec w) (h : f &&& g = f) : hasFlag (x &&& ~~~g) f = false := by
  have e : x &&& ~~~g &&& f = 0 := by
    rw [← h]
    ext i
    simp only [BitVec.getElem_and, BitVec.getElem_not]
    have z : (0 : BitVec w)[i] = false := BitVec.getElem_zero _
    rw [z]
    cases x[i] <;> cases f[i] <;> cases g[i] <;> rfl
  simp [hasFlag, e]

end

/-- A value whose sign bit is clear keeps its value when sign-extended: a non-negative `int`
converted to a wider unsigned type. -/
theorem toNat_signExtend_of_two_mul_lt {w v : Nat} (x : BitVec w) (h : 2 * x.toNat < 2 ^ w) (hwv : w ≤ v) :
    (x.signExtend v).toNat = x.toNat := by
  rw [BitVec.signExtend_eq_setWidth_of_msb_false (BitVec.msb_eq_false_iff_two_mul_lt.2 h), BitVec.toNat_setWidth,
    Nat.mod_eq_of_lt (lt_of_lt_of_le x.isLt (Nat.pow_le_pow_right Nat.two_pos hwv))]

/-! ## `io_uring_setup(2)` flags (io_uring.h:149-200) -/

def IORING_SETUP_IOPOLL : U32 := 1 <<< 0
def IORING_SETUP_SQPOLL : U32 := 1 <<< 1
def IORING_SETUP_CQSIZE : U32 := 1 <<< 3
def IORING_SETUP_CLAMP : U32 := 1 <<< 4
def IORING_SETUP_SQE128 : U32 := 1 <<< 10
def IORING_SETUP_CQE32 : U32 := 1 <<< 11
def IORING_SETUP_NO_MMAP : U32 := 1 <<< 14
def IORING_SETUP_REGISTERED_FD_ONLY : U32 := 1 <<< 15
def IORING_SETUP_NO_SQARRAY : U32 := 1 <<< 16

/-! ## `io_uring_params->features` (io_uring.h:506-519) -/

def IORING_FEAT_SINGLE_MMAP : U32 := 1 <<< 0
def IORING_FEAT_EXT_ARG : U32 := 1 <<< 8
def IORING_FEAT_NATIVE_WORKERS : U32 := 1 <<< 9
def IORING_FEAT_REG_REG_RING : U32 := 1 <<< 13

/-! ## SQ and CQ ring flags and `io_uring_enter(2)` flags (io_uring.h:455-485) -/

def IORING_SQ_NEED_WAKEUP : U32 := 1 <<< 0
def IORING_SQ_CQ_OVERFLOW : U32 := 1 <<< 1
def IORING_SQ_TASKRUN : U32 := 1 <<< 2

def IORING_CQ_EVENTFD_DISABLED : U32 := 1 <<< 0

def IORING_ENTER_GETEVENTS : U32 := 1 <<< 0
def IORING_ENTER_SQ_WAKEUP : U32 := 1 <<< 1
def IORING_ENTER_SQ_WAIT : U32 := 1 <<< 2
def IORING_ENTER_EXT_ARG : U32 := 1 <<< 3
def IORING_ENTER_REGISTERED_RING : U32 := 1 <<< 4

/-! ## `io_uring_register(2)` opcodes (io_uring.h:553-577) -/

def IORING_REGISTER_FILES : U32 := 2
def IORING_REGISTER_FILES2 : U32 := 13
def IORING_REGISTER_RING_FDS : U32 := 20
def IORING_UNREGISTER_RING_FDS : U32 := 21
def IORING_REGISTER_PBUF_STATUS : U32 := 26
def IORING_REGISTER_NAPI : U32 := 27
def IORING_UNREGISTER_NAPI : U32 := 28
def IORING_REGISTER_USE_REGISTERED_RING : U32 := 1 <<< 31

/-- `IO_URING_OP_SUPPORTED` (io_uring.h:625), at the width of `struct io_uring_probe_op`'s `flags`. -/
def IO_URING_OP_SUPPORTED : U16 := 1 <<< 0

/-! ## Library-internal ring flags (int_flags.h:5-9) -/

def INT_FLAG_REG_RING : U8 := 1
def INT_FLAG_REG_REG_RING : U8 := 2
def INT_FLAG_APP_MEM : U8 := 4

/-! ## Error numbers (Linux `errno.h`) -/

def ENOENT : Int32 := 2
def EBADF : Int32 := 9
def EAGAIN : Int32 := 11
def ENOMEM : Int32 := 12
def EEXIST : Int32 := 17
def EINVAL : Int32 := 22
def EMFILE : Int32 := 24
def ETIME : Int32 := 62
def EOPNOTSUPP : Int32 := 95

/-- `LIBURING_UDATA_TIMEOUT` (liburing.h:277): the `user_data` of the library's own timeout SQEs. -/
def LIBURING_UDATA_TIMEOUT : U64 := -1

/-- `struct io_uring_cqe` (io_uring.h:397); the CQE32 padding is never read by the library. -/
structure IoUringCqe where
  userData : U64
  res : Int32
  flags : U32
deriving DecidableEq, Repr

end Liburing
