import Liburing.Defs
import Liburing.Mem.Bytes
/-!
# Preparing a submission queue entry (`liburing.h:334-1212`, `io_uring.h:30-107`)

| here | there |
| --- | --- |
| `SqeField`, `SqeField.opcode` … | the members of `struct io_uring_sqe` by byte offset and width (`io_uring.h:30-107`) |
| `Sqe`, `Sqe.set`, `Sqe.orIn` | an SQ array slot; `sqe->x = v` and `sqe->x |= v` on a little-endian machine |
| `sqePrepared` | the 64 bytes of the entry but `user_data` |
| `ioUringSqeSetData64`, `ioUringSqeSetData`, `ioUringSqeSetFlags` | `liburing.h:349`, `:334`, `:365` |
| `ioUringPrepRw` | `io_uring_prep_rw` (`liburing.h:378-395`) |
| `ioUringPrepSplice` … `ioUringPrepFtruncate` | the `io_uring_prep_*` helpers (`liburing.h:418-1212`) |
| `PrepCall`, `PrepCall.run` | one call of a helper that prepares a fresh entry, with its arguments |
| `Sqe.Fresh` | two slots after the same calls: equal where prepared, each keeping the rest |
| `Sqe.get` | `sqe->x` as the kernel reads it |

SQ array slots are reused, so a byte of an old entry that a helper left in place would go to the
kernel with the new request. `io_uring_prep_rw` stores to every byte of the entry but
`user_data`, which the application sets on its own; every helper calls it first, and after it
only stores, or ORs into bytes that are already stored. `PrepCall.fresh` follows that order: one
lemma per kind of write, and every helper by chaining them. What the kernel then reads from each
member (`ioUringPrepRw_get`) comes from reading a store back at its own bytes and past the stores
to other members.

C conversions are those of the source. An `int` stored to an unsigned field, or passed as
`unsigned`, keeps its bits (`toBitVec`); converted to `__u64` it is sign-extended, and an unsigned
value is zero-extended. `Sqe.set` keeps the low bytes of the value, which is the conversion to the
field's width. `io_uring_prep_send_set_addr` is modelled, as `io_uring_prep_sendto` calls it, but
it is not a `PrepCall`: it writes into an entry prepared before.
-/

set_option linter.style.nameCheck false

namespace Liburing

/-! ## The entry and its members -/

/-- A member of `struct io_uring_sqe`: its byte offset and width, inside the 64 bytes. -/
structure SqeField where
  pos : Nat
  size : Nat
  fits : pos + size ≤ 64

namespace SqeField

def opcode : SqeField := ⟨0, 1, by decide⟩
def flags : SqeField := ⟨1, 1, by decide⟩
def ioprio : SqeField := ⟨2, 2, by decide⟩
def fd : SqeField := ⟨4, 4, by decide⟩
-- the union at byte 8
def off : SqeField := ⟨8, 8, by decide⟩
def addr2 : SqeField := off
def cmdOp : SqeField := ⟨8, 4, by decide⟩
-- the union at byte 16
def addr : SqeField := ⟨16, 8, by decide⟩
def spliceOffIn : SqeField := addr
def level : SqeField := ⟨16, 4, by decide⟩
def optname : SqeField := ⟨20, 4, by decide⟩
def len : SqeField := ⟨24, 4, by decide⟩
-- the union of per-opcode flags at byte 28
def rwFlags : SqeField := ⟨28, 4, by decide⟩
def fsyncFlags : SqeField := rwFlags
def poll32Events : SqeField := rwFlags
def syncRangeFlags : SqeField := rwFlags
def msgFlags : SqeField := rwFlags
def timeoutFlags : SqeField := rwFlags
def acceptFlags : SqeField := rwFlags
def cancelFlags : SqeField := rwFlags
def openFlags : SqeField := rwFlags
def statxFlags : SqeField := rwFlags
def fadviseAdvice : SqeField := rwFlags
def spliceFlags : SqeField := rwFlags
def renameFlags : SqeField := rwFlags
def unlinkFlags : SqeField := rwFlags
def hardlinkFlags : SqeField := rwFlags
def xattrFlags : SqeField := rwFlags
def msgRingFlags : SqeField := rwFlags
def waitidFlags : SqeField := rwFlags
def futexFlags : SqeField := rwFlags
def installFdFlags : SqeField := rwFlags
def userData : SqeField := ⟨32, 8, by decide⟩
-- the packed union at byte 40
def bufIndex : SqeField := ⟨40, 2, by decide⟩
def bufGroup : SqeField := bufIndex
def personality : SqeField := ⟨42, 2, by decide⟩
-- the union at byte 44
def spliceFdIn : SqeField := ⟨44, 4, by decide⟩
def fileIndex : SqeField := spliceFdIn
def optlen : SqeField := spliceFdIn
def addrLen : SqeField := ⟨44, 2, by decide⟩
-- the union at byte 48
def addr3 : SqeField := ⟨48, 8, by decide⟩
def optval : SqeField := addr3
def pad2 : SqeField := ⟨56, 8, by decide⟩

/-- The bytes of the member. -/
def span (f : SqeField) : Set Nat := ByteMem.span f.pos f.size

/-- The member shares no byte with `user_data`. -/
def Outside (f : SqeField) : Prop :=
  f.pos + f.size ≤ userData.pos ∨ userData.pos + userData.size ≤ f.pos

instance (f : SqeField) : Decidable f.Outside := inferInstanceAs (Decidable (_ ∨ _))

/-- The two members share no byte. -/
def Disjoint (f g : SqeField) : Prop := f.pos + f.size ≤ g.pos ∨ g.pos + g.size ≤ f.pos

instance (f g : SqeField) : Decidable (f.Disjoint g) := inferInstanceAs (Decidable (_ ∨ _))

end SqeField

/-- The bytes a helper prepares: the 64 bytes of the entry but `user_data`. -/
def sqePrepared : Set Nat := ByteMem.span 0 64 \ SqeField.userData.span

namespace SqeField

theorem span_subset_prepared {f : SqeField} (hf : f.Outside) : f.span ⊆ sqePrepared := by
  intro j hj
  have hfit := f.fits
  rw [span, ByteMem.mem_span] at hj
  refine ⟨ByteMem.mem_span.2 ⟨Nat.zero_le j, by omega⟩, fun hu => ?_⟩
  rw [span, ByteMem.mem_span] at hu
  unfold Outside at hf
  omega

theorem not_mem_span {f : SqeField} (hf : f.Outside) {j : Nat} (hj : j ∉ sqePrepared) : j ∉ f.span :=
  fun h => hj (span_subset_prepared hf h)

end SqeField

/-- The bytes of an SQ array slot, from the start of its entry. -/
structure Sqe where
  bytes : ByteMem.Mem

namespace Sqe

/-- `sqe->f = v`: the low bytes of `v`, least significant first. -/
def set (sqe : Sqe) (f : SqeField) (v : Nat) : Sqe := ⟨ByteMem.store sqe.bytes f.pos f.size v⟩

/-- `sqe->f |= c`. -/
def orIn (sqe : Sqe) (f : SqeField) (c : Nat) : Sqe := ⟨ByteMem.orStore sqe.bytes f.pos f.size c⟩

/-- `sqe->f` as the kernel reads it: the member's bytes as an unsigned number. -/
def get (sqe : Sqe) (f : SqeField) : Nat := ByteMem.load sqe.bytes f.pos f.size

end Sqe

/-! ## Constants (`io_uring.h`) -/

def IORING_OP_NOP : Int32 := 0
def IORING_OP_READV : Int32 := 1
def IORING_OP_WRITEV : Int32 := 2
def IORING_OP_FSYNC : Int32 := 3
def IORING_OP_READ_FIXED : Int32 := 4
def IORING_OP_WRITE_FIXED : Int32 := 5
def IORING_OP_POLL_ADD : Int32 := 6
def IORING_OP_POLL_REMOVE : Int32 := 7
def IORING_OP_SYNC_FILE_RANGE : Int32 := 8
def IORING_OP_SENDMSG : Int32 := 9
def IORING_OP_RECVMSG : Int32 := 10
def IORING_OP_TIMEOUT : Int32 := 11
def IORING_OP_TIMEOUT_REMOVE : Int32 := 12
def IORING_OP_ACCEPT : Int32 := 13
def IORING_OP_ASYNC_CANCEL : Int32 := 14
def IORING_OP_LINK_TIMEOUT : Int32 := 15
def IORING_OP_CONNECT : Int32 := 16
def IORING_OP_FALLOCATE : Int32 := 17
def IORING_OP_OPENAT : Int32 := 18
def IORING_OP_CLOSE : Int32 := 19
def IORING_OP_FILES_UPDATE : Int32 := 20
def IORING_OP_STATX : Int32 := 21
def IORING_OP_READ : Int32 := 22
def IORING_OP_WRITE : Int32 := 23
def IORING_OP_FADVISE : Int32 := 24
def IORING_OP_MADVISE : Int32 := 25
def IORING_OP_SEND : Int32 := 26
def IORING_OP_RECV : Int32 := 27
def IORING_OP_OPENAT2 : Int32 := 28
def IORING_OP_EPOLL_CTL : Int32 := 29
def IORING_OP_SPLICE : Int32 := 30
def IORING_OP_PROVIDE_BUFFERS : Int32 := 31
def IORING_OP_REMOVE_BUFFERS : Int32 := 32
def IORING_OP_TEE : Int32 := 33
def IORING_OP_SHUTDOWN : Int32 := 34
def IORING_OP_RENAMEAT : Int32 := 35
def IORING_OP_UNLINKAT : Int32 := 36
def IORING_OP_MKDIRAT : Int32 := 37
def IORING_OP_SYMLINKAT : Int32 := 38
def IORING_OP_LINKAT : Int32 := 39
def IORING_OP_MSG_RING : Int32 := 40
def IORING_OP_FSETXATTR : Int32 := 41
def IORING_OP_SETXATTR : Int32 := 42
def IORING_OP_FGETXATTR : Int32 := 43
def IORING_OP_GETXATTR : Int32 := 44
def IORING_OP_SOCKET : Int32 := 45
def IORING_OP_URING_CMD : Int32 := 46
def IORING_OP_SEND_ZC : Int32 := 47
def IORING_OP_SENDMSG_ZC : Int32 := 48
def IORING_OP_READ_MULTISHOT : Int32 := 49
def IORING_OP_WAITID : Int32 := 50
def IORING_OP_FUTEX_WAIT : Int32 := 51
def IORING_OP_FUTEX_WAKE : Int32 := 52
def IORING_OP_FUTEX_WAITV : Int32 := 53
def IORING_OP_FIXED_FD_INSTALL : Int32 := 54
def IORING_OP_FTRUNCATE : Int32 := 55

def IOSQE_FIXED_FILE : U32 := 1 <<< 0
def IOSQE_BUFFER_SELECT : U32 := 1 <<< 5
def IORING_FILE_INDEX_ALLOC : U32 := ~~~0
def IORING_TIMEOUT_UPDATE : U32 := 1 <<< 1
def IORING_POLL_ADD_MULTI : U32 := 1 <<< 0
def IORING_ASYNC_CANCEL_FD : U32 := 1 <<< 1
def IORING_RECV_MULTISHOT : U32 := 1 <<< 1
def IORING_RECVSEND_FIXED_BUF : U32 := 1 <<< 2
def IORING_ACCEPT_MULTISHOT : U32 := 1 <<< 0
/-- `IORING_MSG_SEND_FD` of the `IORING_OP_MSG_RING` command enum, as the pointer it is passed as. -/
def IORING_MSG_SEND_FD : U64 := 1
def IORING_MSG_RING_FLAGS_PASS : U32 := 1 <<< 1
/-- `AT_FDCWD` of `fcntl.h`. -/
def AT_FDCWD : Int32 := -100
/-- `sizeof(struct open_how)`: three `uint64_t` (`configure:577-581`). -/
def SIZEOF_OPEN_HOW : U32 := 24

/-! ## The members the application sets (`liburing.h:334-369`) -/

/-- `io_uring_sqe_set_data64`. -/
def ioUringSqeSetData64 (sqe : Sqe) (data : U64) : Sqe :=
  sqe.set .userData data.toNat

/-- `io_uring_sqe_set_data`: the pointer's bits, as `unsigned long`. -/
def ioUringSqeSetData (sqe : Sqe) (data : U64) : Sqe :=
  sqe.set .userData data.toNat

/-- `io_uring_sqe_set_flags`: `(__u8) flags`. -/
def ioUringSqeSetFlags (sqe : Sqe) (flags : U32) : Sqe :=
  sqe.set .flags (flags.setWidth 8).toNat

/-! ## `io_uring_prep_rw` and the helpers -/

/-- Encode a fixed file index as `index + 1`, since 0 means no fixed file. -/
def __ioUringSetTargetFixedFile (sqe : Sqe) (fileIndex : U32) : Sqe :=
  sqe.set .fileIndex (fileIndex + 1).toNat

/-- The base of every helper: every member but `user_data` is stored. -/
def ioUringPrepRw (op : Int32) (sqe : Sqe) (fd : Int32) (addr : U64) (len : U32) (offset : U64) : Sqe :=
  sqe
  |>.set .opcode op.toBitVec.toNat
  |>.set .flags 0
  |>.set .ioprio 0
  |>.set .fd fd.toBitVec.toNat
  |>.set .off offset.toNat
  |>.set .addr addr.toNat
  |>.set .len len.toNat
  |>.set .rwFlags 0
  |>.set .bufIndex 0
  |>.set .personality 0
  |>.set .fileIndex 0
  |>.set .addr3 0
  |>.set .pad2 0

def ioUringPrepSplice (sqe : Sqe) (fdIn : Int32) (offIn : Int64) (fdOut : Int32) (offOut : Int64)
    (nbytes spliceFlags : U32) : Sqe :=
  ioUringPrepRw IORING_OP_SPLICE sqe fdOut 0 nbytes offOut.toBitVec
  |>.set .spliceOffIn offIn.toBitVec.toNat
  |>.set .spliceFdIn fdIn.toBitVec.toNat
  |>.set .spliceFlags spliceFlags.toNat

def ioUringPrepTee (sqe : Sqe) (fdIn fdOut : Int32) (nbytes spliceFlags : U32) : Sqe :=
  ioUringPrepRw IORING_OP_TEE sqe fdOut 0 nbytes 0
  |>.set .spliceOffIn 0
  |>.set .spliceFdIn fdIn.toBitVec.toNat
  |>.set .spliceFlags spliceFlags.toNat

def ioUringPrepReadv (sqe : Sqe) (fd : Int32) (iovecs : U64) (nrVecs : U32) (offset : U64) : Sqe :=
  ioUringPrepRw IORING_OP_READV sqe fd iovecs nrVecs offset

def ioUringPrepReadv2 (sqe : Sqe) (fd : Int32) (iovecs : U64) (nrVecs : U32) (offset : U64)
    (flags : Int32) : Sqe :=
  ioUringPrepReadv sqe fd iovecs nrVecs offset
  |>.set .rwFlags flags.toBitVec.toNat

def ioUringPrepReadFixed (sqe : Sqe) (fd : Int32) (buf : U64) (nbytes : U32) (offset : U64)
    (bufIndex : Int32) : Sqe :=
  ioUringPrepRw IORING_OP_READ_FIXED sqe fd buf nbytes offset
  |>.set .bufIndex bufIndex.toBitVec.toNat

def ioUringPrepWritev (sqe : Sqe) (fd : Int32) (iovecs : U64) (nrVecs : U32) (offset : U64) : Sqe :=
  ioUringPrepRw IORING_OP_WRITEV sqe fd iovecs nrVecs offset

def ioUringPrepWritev2 (sqe : Sqe) (fd : Int32) (iovecs : U64) (nrVecs : U32) (offset : U64)
    (flags : Int32) : Sqe :=
  ioUringPrepWritev sqe fd iovecs nrVecs offset
  |>.set .rwFlags flags.toBitVec.toNat

def ioUringPrepWriteFixed (sqe : Sqe) (fd : Int32) (buf : U64) (nbytes : U32) (offset : U64)
    (bufIndex : Int32) : Sqe :=
  ioUringPrepRw IORING_OP_WRITE_FIXED sqe fd buf nbytes offset
  |>.set .bufIndex bufIndex.toBitVec.toNat

def ioUringPrepRecvmsg (sqe : Sqe) (fd : Int32) (msg : U64) (flags : U32) : Sqe :=
  ioUringPrepRw IORING_OP_RECVMSG sqe fd msg 1 0
  |>.set .msgFlags flags.toNat

def ioUringPrepRecvmsgMultishot (sqe : Sqe) (fd : Int32) (msg : U64) (flags : U32) : Sqe :=
  ioUringPrepRecvmsg sqe fd msg flags
  |>.orIn .ioprio IORING_RECV_MULTISHOT.toNat

def ioUringPrepSendmsg (sqe : Sqe) (fd : Int32) (msg : U64) (flags : U32) : Sqe :=
  ioUringPrepRw IORING_OP_SENDMSG sqe fd msg 1 0
  |>.set .msgFlags flags.toNat

/-- The poll mask as the kernel reads it on a little-endian machine, where `Sqe.set` is right;
a big-endian one swaps its half-words. -/
def __ioUringPrepPollMask (pollMask : U32) : U32 := pollMask

def ioUringPrepPollAdd (sqe : Sqe) (fd : Int32) (pollMask : U32) : Sqe :=
  ioUringPrepRw IORING_OP_POLL_ADD sqe fd 0 0 0
  |>.set .poll32Events (__ioUringPrepPollMask pollMask).toNat

def ioUringPrepPollMultishot (sqe : Sqe) (fd : Int32) (pollMask : U32) : Sqe :=
  ioUringPrepPollAdd sqe fd pollMask
  |>.set .len IORING_POLL_ADD_MULTI.toNat

def ioUringPrepPollRemove (sqe : Sqe) (userData : U64) : Sqe :=
  ioUringPrepRw IORING_OP_POLL_REMOVE sqe (-1) 0 0 0
  |>.set .addr userData.toNat

def ioUringPrepPollUpdate (sqe : Sqe) (oldUserData newUserData : U64) (pollMask flags : U32) : Sqe :=
  ioUringPrepRw IORING_OP_POLL_REMOVE sqe (-1) 0 flags newUserData
  |>.set .addr oldUserData.toNat
  |>.set .poll32Events (__ioUringPrepPollMask pollMask).toNat

def ioUringPrepFsync (sqe : Sqe) (fd : Int32) (fsyncFlags : U32) : Sqe :=
  ioUringPrepRw IORING_OP_FSYNC sqe fd 0 0 0
  |>.set .fsyncFlags fsyncFlags.toNat

def ioUringPrepNop (sqe : Sqe) : Sqe :=
  ioUringPrepRw IORING_OP_NOP sqe (-1) 0 0 0

def ioUringPrepTimeout (sqe : Sqe) (ts : U64) (count flags : U32) : Sqe :=
  ioUringPrepRw IORING_OP_TIMEOUT sqe (-1) ts 1 (count.setWidth 64)
  |>.set .timeoutFlags flags.toNat

def ioUringPrepTimeoutRemove (sqe : Sqe) (userData : U64) (flags : U32) : Sqe :=
  ioUringPrepRw IORING_OP_TIMEOUT_REMOVE sqe (-1) 0 0 0
  |>.set .addr userData.toNat
  |>.set .timeoutFlags flags.toNat

def ioUringPrepTimeoutUpdate (sqe : Sqe) (ts userData : U64) (flags : U32) : Sqe :=
  ioUringPrepRw IORING_OP_TIMEOUT_REMOVE sqe (-1) 0 0 ts
  |>.set .addr userData.toNat
  |>.set .timeoutFlags (flags ||| IORING_TIMEOUT_UPDATE).toNat

def ioUringPrepAccept (sqe : Sqe) (fd : Int32) (addr addrlen : U64) (flags : Int32) : Sqe :=
  ioUringPrepRw IORING_OP_ACCEPT sqe fd addr 0 addrlen
  |>.set .acceptFlags flags.toBitVec.toNat

def ioUringPrepAcceptDirect (sqe : Sqe) (fd : Int32) (addr addrlen : U64) (flags : Int32)
    (fileIndex : U32) : Sqe :=
  let sqe := ioUringPrepAccept sqe fd addr addrlen flags
  -- offset by 1 for allocation
  let fileIndex := if fileIndex = IORING_FILE_INDEX_ALLOC then fileIndex - 1 else fileIndex
  __ioUringSetTargetFixedFile sqe fileIndex

def ioUringPrepMultishotAccept (sqe : Sqe) (fd : Int32) (addr addrlen : U64) (flags : Int32) : Sqe :=
  ioUringPrepAccept sqe fd addr addrlen flags
  |>.orIn .ioprio IORING_ACCEPT_MULTISHOT.toNat

def ioUringPrepMultishotAcceptDirect (sqe : Sqe) (fd : Int32) (addr addrlen : U64) (flags : Int32) : Sqe :=
  __ioUringSetTargetFixedFile (ioUringPrepMultishotAccept sqe fd addr addrlen flags)
    (IORING_FILE_INDEX_ALLOC - 1)

def ioUringPrepCancel64 (sqe : Sqe) (userData : U64) (flags : Int32) : Sqe :=
  ioUringPrepRw IORING_OP_ASYNC_CANCEL sqe (-1) 0 0 0
  |>.set .addr userData.toNat
  |>.set .cancelFlags flags.toBitVec.toNat

def ioUringPrepCancel (sqe : Sqe) (userData : U64) (flags : Int32) : Sqe :=
  ioUringPrepCancel64 sqe userData flags

def ioUringPrepCancelFd (sqe : Sqe) (fd : Int32) (flags : U32) : Sqe :=
  ioUringPrepRw IORING_OP_ASYNC_CANCEL sqe fd 0 0 0
  |>.set .cancelFlags (flags ||| IORING_ASYNC_CANCEL_FD).toNat

def ioUringPrepLinkTimeout (sqe : Sqe) (ts : U64) (flags : U32) : Sqe :=
  ioUringPrepRw IORING_OP_LINK_TIMEOUT sqe (-1) ts 1 0
  |>.set .timeoutFlags flags.toNat

def ioUringPrepConnect (sqe : Sqe) (fd : Int32) (addr : U64) (addrlen : U32) : Sqe :=
  ioUringPrepRw IORING_OP_CONNECT sqe fd addr 0 (addrlen.setWidth 64)

def ioUringPrepFilesUpdate (sqe : Sqe) (fds : U64) (nrFds : U32) (offset : Int32) : Sqe :=
  ioUringPrepRw IORING_OP_FILES_UPDATE sqe (-1) fds nrFds (offset.toBitVec.signExtend 64)

def ioUringPrepFallocate (sqe : Sqe) (fd mode : Int32) (offset len : U64) : Sqe :=
  ioUringPrepRw IORING_OP_FALLOCATE sqe fd 0 mode.toBitVec offset
  |>.set .addr len.toNat

def ioUringPrepOpenat (sqe : Sqe) (dfd : Int32) (path : U64) (flags : Int32) (mode : U32) : Sqe :=
  ioUringPrepRw IORING_OP_OPENAT sqe dfd path mode 0
  |>.set .openFlags flags.toBitVec.toNat

def ioUringPrepOpenatDirect (sqe : Sqe) (dfd : Int32) (path : U64) (flags : Int32) (mode : U32)
    (fileIndex : U32) : Sqe :=
  let sqe := ioUringPrepOpenat sqe dfd path flags mode
  -- offset by 1 for allocation
  let fileIndex := if fileIndex = IORING_FILE_INDEX_ALLOC then fileIndex - 1 else fileIndex
  __ioUringSetTargetFixedFile sqe fileIndex

def ioUringPrepClose (sqe : Sqe) (fd : Int32) : Sqe :=
  ioUringPrepRw IORING_OP_CLOSE sqe fd 0 0 0

def ioUringPrepCloseDirect (sqe : Sqe) (fileIndex : U32) : Sqe :=
  __ioUringSetTargetFixedFile (ioUringPrepClose sqe 0) fileIndex

def ioUringPrepRead (sqe : Sqe) (fd : Int32) (buf : U64) (nbytes : U32) (offset : U64) : Sqe :=
  ioUringPrepRw IORING_OP_READ sqe fd buf nbytes offset

def ioUringPrepReadMultishot (sqe : Sqe) (fd : Int32) (nbytes : U32) (offset : U64) (bufGroup : Int32) : Sqe :=
  ioUringPrepRw IORING_OP_READ_MULTISHOT sqe fd 0 nbytes offset
  |>.set .bufGroup bufGroup.toBitVec.toNat
  |>.orIn .flags IOSQE_BUFFER_SELECT.toNat

def ioUringPrepWrite (sqe : Sqe) (fd : Int32) (buf : U64) (nbytes : U32) (offset : U64) : Sqe :=
  ioUringPrepRw IORING_OP_WRITE sqe fd buf nbytes offset

def ioUringPrepStatx (sqe : Sqe) (dfd : Int32) (path : U64) (flags : Int32) (mask : U32)
    (statxbuf : U64) : Sqe :=
  ioUringPrepRw IORING_OP_STATX sqe dfd path mask statxbuf
  |>.set .statxFlags flags.toBitVec.toNat

def ioUringPrepFadvise (sqe : Sqe) (fd : Int32) (offset : U64) (len : Int64) (advice : Int32) : Sqe :=
  ioUringPrepRw IORING_OP_FADVISE sqe fd 0 (len.toBitVec.setWidth 32) offset
  |>.set .fadviseAdvice advice.toBitVec.toNat

def ioUringPrepMadvise (sqe : Sqe) (addr : U64) (length : Int64) (advice : Int32) : Sqe :=
  ioUringPrepRw IORING_OP_MADVISE sqe (-1) addr (length.toBitVec.setWidth 32) 0
  |>.set .fadviseAdvice advice.toBitVec.toNat

def ioUringPrepSend (sqe : Sqe) (sockfd : Int32) (buf len : U64) (flags : Int32) : Sqe :=
  ioUringPrepRw IORING_OP_SEND sqe sockfd buf (len.setWidth 32) 0
  |>.set .msgFlags flags.toBitVec.toNat

/-- Adds a destination to an entry prepared before; not a helper of its own. -/
def ioUringPrepSendSetAddr (sqe : Sqe) (destAddr : U64) (addrLen : U16) : Sqe :=
  sqe
  |>.set .addr2 destAddr.toNat
  |>.set .addrLen addrLen.toNat

def ioUringPrepSendto (sqe : Sqe) (sockfd : Int32) (buf len : U64) (flags : Int32) (addr : U64)
    (addrlen : U32) : Sqe :=
  ioUringPrepSendSetAddr (ioUringPrepSend sqe sockfd buf len flags) addr (addrlen.setWidth 16)

def ioUringPrepSendZc (sqe : Sqe) (sockfd : Int32) (buf len : U64) (flags : Int32) (zcFlags : U32) : Sqe :=
  ioUringPrepRw IORING_OP_SEND_ZC sqe sockfd buf (len.setWidth 32) 0
  |>.set .msgFlags flags.toBitVec.toNat
  |>.set .ioprio zcFlags.toNat

def ioUringPrepSendZcFixed (sqe : Sqe) (sockfd : Int32) (buf len : U64) (flags : Int32)
    (zcFlags bufIndex : U32) : Sqe :=
  ioUringPrepSendZc sqe sockfd buf len flags zcFlags
  |>.orIn .ioprio IORING_RECVSEND_FIXED_BUF.toNat
  |>.set .bufIndex bufIndex.toNat

def ioUringPrepSendmsgZc (sqe : Sqe) (fd : Int32) (msg : U64) (flags : U32) : Sqe :=
  ioUringPrepSendmsg sqe fd msg flags
  |>.set .opcode IORING_OP_SENDMSG_ZC.toBitVec.toNat

def ioUringPrepRecv (sqe : Sqe) (sockfd : Int32) (buf len : U64) (flags : Int32) : Sqe :=
  ioUringPrepRw IORING_OP_RECV sqe sockfd buf (len.setWidth 32) 0
  |>.set .msgFlags flags.toBitVec.toNat

def ioUringPrepRecvMultishot (sqe : Sqe) (sockfd : Int32) (buf len : U64) (flags : Int32) : Sqe :=
  ioUringPrepRecv sqe sockfd buf len flags
  |>.orIn .ioprio IORING_RECV_MULTISHOT.toNat

def ioUringPrepOpenat2 (sqe : Sqe) (dfd : Int32) (path how : U64) : Sqe :=
  ioUringPrepRw IORING_OP_OPENAT2 sqe dfd path SIZEOF_OPEN_HOW how

def ioUringPrepOpenat2Direct (sqe : Sqe) (dfd : Int32) (path how : U64) (fileIndex : U32) : Sqe :=
  let sqe := ioUringPrepOpenat2 sqe dfd path how
  -- offset by 1 for allocation
  let fileIndex := if fileIndex = IORING_FILE_INDEX_ALLOC then fileIndex - 1 else fileIndex
  __ioUringSetTargetFixedFile sqe fileIndex

def ioUringPrepEpollCtl (sqe : Sqe) (epfd fd op : Int32) (ev : U64) : Sqe :=
  ioUringPrepRw IORING_OP_EPOLL_CTL sqe epfd ev op.toBitVec (fd.toBitVec.setWidth 64)

def ioUringPrepProvideBuffers (sqe : Sqe) (addr : U64) (len nr bgid bid : Int32) : Sqe :=
  ioUringPrepRw IORING_OP_PROVIDE_BUFFERS sqe nr addr len.toBitVec (bid.toBitVec.signExtend 64)
  |>.set .bufGroup bgid.toBitVec.toNat

def ioUringPrepRemoveBuffers (sqe : Sqe) (nr bgid : Int32) : Sqe :=
  ioUringPrepRw IORING_OP_REMOVE_BUFFERS sqe nr 0 0 0
  |>.set .bufGroup bgid.toBitVec.toNat

def ioUringPrepShutdown (sqe : Sqe) (fd how : Int32) : Sqe :=
  ioUringPrepRw IORING_OP_SHUTDOWN sqe fd 0 how.toBitVec 0

def ioUringPrepUnlinkat (sqe : Sqe) (dfd : Int32) (path : U64) (flags : Int32) : Sqe :=
  ioUringPrepRw IORING_OP_UNLINKAT sqe dfd path 0 0
  |>.set .unlinkFlags flags.toBitVec.toNat

def ioUringPrepUnlink (sqe : Sqe) (path : U64) (flags : Int32) : Sqe :=
  ioUringPrepUnlinkat sqe AT_FDCWD path flags

def ioUringPrepRenameat (sqe : Sqe) (olddfd : Int32) (oldpath : U64) (newdfd : Int32) (newpath : U64)
    (flags : U32) : Sqe :=
  ioUringPrepRw IORING_OP_RENAMEAT sqe olddfd oldpath newdfd.toBitVec newpath
  |>.set .renameFlags flags.toNat

def ioUringPrepRename (sqe : Sqe) (oldpath newpath : U64) : Sqe :=
  ioUringPrepRenameat sqe AT_FDCWD oldpath AT_FDCWD newpath 0

def ioUringPrepSyncFileRange (sqe : Sqe) (fd : Int32) (len : U32) (offset : U64) (flags : Int32) : Sqe :=
  ioUringPrepRw IORING_OP_SYNC_FILE_RANGE sqe fd 0 len offset
  |>.set .syncRangeFlags flags.toBitVec.toNat

def ioUringPrepMkdirat (sqe : Sqe) (dfd : Int32) (path : U64) (mode : U32) : Sqe :=
  ioUringPrepRw IORING_OP_MKDIRAT sqe dfd path mode 0

def ioUringPrepMkdir (sqe : Sqe) (path : U64) (mode : U32) : Sqe :=
  ioUringPrepMkdirat sqe AT_FDCWD path mode

def ioUringPrepSymlinkat (sqe : Sqe) (target : U64) (newdirfd : Int32) (linkpath : U64) : Sqe :=
  ioUringPrepRw IORING_OP_SYMLINKAT sqe newdirfd target 0 linkpath

def ioUringPrepSymlink (sqe : Sqe) (target linkpath : U64) : Sqe :=
  ioUringPrepSymlinkat sqe target AT_FDCWD linkpath

def ioUringPrepLinkat (sqe : Sqe) (olddfd : Int32) (oldpath : U64) (newdfd : Int32) (newpath : U64)
    (flags : Int32) : Sqe :=
  ioUringPrepRw IORING_OP_LINKAT sqe olddfd oldpath newdfd.toBitVec newpath
  |>.set .hardlinkFlags flags.toBitVec.toNat

def ioUringPrepLink (sqe : Sqe) (oldpath newpath : U64) (flags : Int32) : Sqe :=
  ioUringPrepLinkat sqe AT_FDCWD oldpath AT_FDCWD newpath flags

def ioUringPrepMsgRingCqeFlags (sqe : Sqe) (fd : Int32) (len : U32) (data : U64) (flags cqeFlags : U32) : Sqe :=
  ioUringPrepRw IORING_OP_MSG_RING sqe fd 0 len data
  |>.set .msgRingFlags (IORING_MSG_RING_FLAGS_PASS ||| flags).toNat
  |>.set .fileIndex cqeFlags.toNat

def ioUringPrepMsgRing (sqe : Sqe) (fd : Int32) (len : U32) (data : U64) (flags : U32) : Sqe :=
  ioUringPrepRw IORING_OP_MSG_RING sqe fd 0 len data
  |>.set .msgRingFlags flags.toNat

def ioUringPrepMsgRingFd (sqe : Sqe) (fd sourceFd targetFd : Int32) (data : U64) (flags : U32) : Sqe :=
  let sqe := ioUringPrepRw IORING_OP_MSG_RING sqe fd IORING_MSG_SEND_FD 0 data
  let sqe := sqe.set .addr3 (sourceFd.toBitVec.signExtend 64).toNat
  -- offset by 1 for allocation
  let targetFd := if targetFd.toBitVec = IORING_FILE_INDEX_ALLOC then targetFd - 1 else targetFd
  let sqe := __ioUringSetTargetFixedFile sqe targetFd.toBitVec
  sqe.set .msgRingFlags flags.toNat

def ioUringPrepMsgRingFdAlloc (sqe : Sqe) (fd sourceFd : Int32) (data : U64) (flags : U32) : Sqe :=
  ioUringPrepMsgRingFd sqe fd sourceFd (Int32.ofBitVec IORING_FILE_INDEX_ALLOC) data flags

def ioUringPrepGetxattr (sqe : Sqe) (name value path : U64) (len : U32) : Sqe :=
  ioUringPrepRw IORING_OP_GETXATTR sqe 0 name len value
  |>.set .addr3 path.toNat
  |>.set .xattrFlags 0

def ioUringPrepSetxattr (sqe : Sqe) (name value path : U64) (flags : Int32) (len : U32) : Sqe :=
  ioUringPrepRw IORING_OP_SETXATTR sqe 0 name len value
  |>.set .addr3 path.toNat
  |>.set .xattrFlags flags.toBitVec.toNat

def ioUringPrepFgetxattr (sqe : Sqe) (fd : Int32) (name value : U64) (len : U32) : Sqe :=
  ioUringPrepRw IORING_OP_FGETXATTR sqe fd name len value
  |>.set .xattrFlags 0

def ioUringPrepFsetxattr (sqe : Sqe) (fd : Int32) (name value : U64) (flags : Int32) (len : U32) : Sqe :=
  ioUringPrepRw IORING_OP_FSETXATTR sqe fd name len value
  |>.set .xattrFlags flags.toBitVec.toNat

def ioUringPrepSocket (sqe : Sqe) (domain type protocol : Int32) (flags : U32) : Sqe :=
  ioUringPrepRw IORING_OP_SOCKET sqe domain 0 protocol.toBitVec (type.toBitVec.signExtend 64)
  |>.set .rwFlags flags.toNat

def ioUringPrepSocketDirect (sqe : Sqe) (domain type protocol : Int32) (fileIndex flags : U32) : Sqe :=
  let sqe := ioUringPrepRw IORING_OP_SOCKET sqe domain 0 protocol.toBitVec (type.toBitVec.signExtend 64)
  let sqe := sqe.set .rwFlags flags.toNat
  -- offset by 1 for allocation
  let fileIndex := if fileIndex = IORING_FILE_INDEX_ALLOC then fileIndex - 1 else fileIndex
  __ioUringSetTargetFixedFile sqe fileIndex

def ioUringPrepSocketDirectAlloc (sqe : Sqe) (domain type protocol : Int32) (flags : U32) : Sqe :=
  let sqe := ioUringPrepRw IORING_OP_SOCKET sqe domain 0 protocol.toBitVec (type.toBitVec.signExtend 64)
  let sqe := sqe.set .rwFlags flags.toNat
  __ioUringSetTargetFixedFile sqe (IORING_FILE_INDEX_ALLOC - 1)

def ioUringPrepCmdSock (sqe : Sqe) (cmdOp fd level optname : Int32) (optval : U64) (optlen : Int32) : Sqe :=
  ioUringPrepRw IORING_OP_URING_CMD sqe fd 0 0 0
  |>.set .optval optval.toNat
  |>.set .optname optname.toBitVec.toNat
  |>.set .optlen optlen.toBitVec.toNat
  |>.set .cmdOp cmdOp.toBitVec.toNat
  |>.set .level level.toBitVec.toNat

def ioUringPrepWaitid (sqe : Sqe) (idtype id : U32) (infop : U64) (options : Int32) (flags : U32) : Sqe :=
  ioUringPrepRw IORING_OP_WAITID sqe (Int32.ofBitVec id) 0 idtype 0
  |>.set .waitidFlags flags.toNat
  |>.set .fileIndex options.toBitVec.toNat
  |>.set .addr2 infop.toNat

def ioUringPrepFutexWake (sqe : Sqe) (futex val mask : U64) (futexFlags flags : U32) : Sqe :=
  ioUringPrepRw IORING_OP_FUTEX_WAKE sqe (Int32.ofBitVec futexFlags) futex 0 val
  |>.set .futexFlags flags.toNat
  |>.set .addr3 mask.toNat

def ioUringPrepFutexWait (sqe : Sqe) (futex val mask : U64) (futexFlags flags : U32) : Sqe :=
  ioUringPrepRw IORING_OP_FUTEX_WAIT sqe (Int32.ofBitVec futexFlags) futex 0 val
  |>.set .futexFlags flags.toNat
  |>.set .addr3 mask.toNat

def ioUringPrepFutexWaitv (sqe : Sqe) (futex : U64) (nrFutex flags : U32) : Sqe :=
  ioUringPrepRw IORING_OP_FUTEX_WAITV sqe 0 futex nrFutex 0
  |>.set .futexFlags flags.toNat

def ioUringPrepFixedFdInstall (sqe : Sqe) (fd : Int32) (flags : U32) : Sqe :=
  ioUringPrepRw IORING_OP_FIXED_FD_INSTALL sqe fd 0 0 0
  |>.set .flags IOSQE_FIXED_FILE.toNat
  |>.set .installFdFlags flags.toNat

def ioUringPrepFtruncate (sqe : Sqe) (fd : Int32) (len : Int64) : Sqe :=
  ioUringPrepRw IORING_OP_FTRUNCATE sqe fd 0 0 len.toBitVec

/-! ## The helpers as calls -/

/-- A call of a helper that prepares a fresh entry, with the helper's arguments but the slot. -/
inductive PrepCall
  | rw (op fd : Int32) (addr : U64) (len : U32) (offset : U64)
  | splice (fdIn : Int32) (offIn : Int64) (fdOut : Int32) (offOut : Int64) (nbytes spliceFlags : U32)
  | tee (fdIn fdOut : Int32) (nbytes spliceFlags : U32)
  | readv (fd : Int32) (iovecs : U64) (nrVecs : U32) (offset : U64)
  | readv2 (fd : Int32) (iovecs : U64) (nrVecs : U32) (offset : U64) (flags : Int32)
  | readFixed (fd : Int32) (buf : U64) (nbytes : U32) (offset : U64) (bufIndex : Int32)
  | writev (fd : Int32) (iovecs : U64) (nrVecs : U32) (offset : U64)
  | writev2 (fd : Int32) (iovecs : U64) (nrVecs : U32) (offset : U64) (flags : Int32)
  | writeFixed (fd : Int32) (buf : U64) (nbytes : U32) (offset : U64) (bufIndex : Int32)
  | recvmsg (fd : Int32) (msg : U64) (flags : U32)
  | recvmsgMultishot (fd : Int32) (msg : U64) (flags : U32)
  | sendmsg (fd : Int32) (msg : U64) (flags : U32)
  | pollAdd (fd : Int32) (pollMask : U32)
  | pollMultishot (fd : Int32) (pollMask : U32)
  | pollRemove (userData : U64)
  | pollUpdate (oldUserData newUserData : U64) (pollMask flags : U32)
  | fsync (fd : Int32) (fsyncFlags : U32)
  | nop
  | timeout (ts : U64) (count flags : U32)
  | timeoutRemove (userData : U64) (flags : U32)
  | timeoutUpdate (ts userData : U64) (flags : U32)
  | accept (fd : Int32) (addr addrlen : U64) (flags : Int32)
  | acceptDirect (fd : Int32) (addr addrlen : U64) (flags : Int32) (fileIndex : U32)
  | multishotAccept (fd : Int32) (addr addrlen : U64) (flags : Int32)
  | multishotAcceptDirect (fd : Int32) (addr addrlen : U64) (flags : Int32)
  | cancel64 (userData : U64) (flags : Int32)
  | cancel (userData : U64) (flags : Int32)
  | cancelFd (fd : Int32) (flags : U32)
  | linkTimeout (ts : U64) (flags : U32)
  | connect (fd : Int32) (addr : U64) (addrlen : U32)
  | filesUpdate (fds : U64) (nrFds : U32) (offset : Int32)
  | fallocate (fd mode : Int32) (offset len : U64)
  | openat (dfd : Int32) (path : U64) (flags : Int32) (mode : U32)
  | openatDirect (dfd : Int32) (path : U64) (flags : Int32) (mode fileIndex : U32)
  | close (fd : Int32)
  | closeDirect (fileIndex : U32)
  | read (fd : Int32) (buf : U64) (nbytes : U32) (offset : U64)
  | readMultishot (fd : Int32) (nbytes : U32) (offset : U64) (bufGroup : Int32)
  | write (fd : Int32) (buf : U64) (nbytes : U32) (offset : U64)
  | statx (dfd : Int32) (path : U64) (flags : Int32) (mask : U32) (statxbuf : U64)
  | fadvise (fd : Int32) (offset : U64) (len : Int64) (advice : Int32)
  | madvise (addr : U64) (length : Int64) (advice : Int32)
  | send (sockfd : Int32) (buf len : U64) (flags : Int32)
  | sendto (sockfd : Int32) (buf len : U64) (flags : Int32) (addr : U64) (addrlen : U32)
  | sendZc (sockfd : Int32) (buf len : U64) (flags : Int32) (zcFlags : U32)
  | sendZcFixed (sockfd : Int32) (buf len : U64) (flags : Int32) (zcFlags bufIndex : U32)
  | sendmsgZc (fd : Int32) (msg : U64) (flags : U32)
  | recv (sockfd : Int32) (buf len : U64) (flags : Int32)
  | recvMultishot (sockfd : Int32) (buf len : U64) (flags : Int32)
  | openat2 (dfd : Int32) (path how : U64)
  | openat2Direct (dfd : Int32) (path how : U64) (fileIndex : U32)
  | epollCtl (epfd fd op : Int32) (ev : U64)
  | provideBuffers (addr : U64) (len nr bgid bid : Int32)
  | removeBuffers (nr bgid : Int32)
  | shutdown (fd how : Int32)
  | unlinkat (dfd : Int32) (path : U64) (flags : Int32)
  | unlink (path : U64) (flags : Int32)
  | renameat (olddfd : Int32) (oldpath : U64) (newdfd : Int32) (newpath : U64) (flags : U32)
  | rename (oldpath newpath : U64)
  | syncFileRange (fd : Int32) (len : U32) (offset : U64) (flags : Int32)
  | mkdirat (dfd : Int32) (path : U64) (mode : U32)
  | mkdir (path : U64) (mode : U32)
  | symlinkat (target : U64) (newdirfd : Int32) (linkpath : U64)
  | symlink (target linkpath : U64)
  | linkat (olddfd : Int32) (oldpath : U64) (newdfd : Int32) (newpath : U64) (flags : Int32)
  | link (oldpath newpath : U64) (flags : Int32)
  | msgRingCqeFlags (fd : Int32) (len : U32) (data : U64) (flags cqeFlags : U32)
  | msgRing (fd : Int32) (len : U32) (data : U64) (flags : U32)
  | msgRingFd (fd sourceFd targetFd : Int32) (data : U64) (flags : U32)
  | msgRingFdAlloc (fd sourceFd : Int32) (data : U64) (flags : U32)
  | getxattr (name value path : U64) (len : U32)
  | setxattr (name value path : U64) (flags : Int32) (len : U32)
  | fgetxattr (fd : Int32) (name value : U64) (len : U32)
  | fsetxattr (fd : Int32) (name value : U64) (flags : Int32) (len : U32)
  | socket (domain type protocol : Int32) (flags : U32)
  | socketDirect (domain type protocol : Int32) (fileIndex flags : U32)
  | socketDirectAlloc (domain type protocol : Int32) (flags : U32)
  | cmdSock (cmdOp fd level optname : Int32) (optval : U64) (optlen : Int32)
  | waitid (idtype id : U32) (infop : U64) (options : Int32) (flags : U32)
  | futexWake (futex val mask : U64) (futexFlags flags : U32)
  | futexWait (futex val mask : U64) (futexFlags flags : U32)
  | futexWaitv (futex : U64) (nrFutex flags : U32)
  | fixedFdInstall (fd : Int32) (flags : U32)
  | ftruncate (fd : Int32) (len : Int64)

/-- The entry a call prepares in a slot. -/
def PrepCall.run : PrepCall → Sqe → Sqe
  | .rw op fd addr len offset, sqe => ioUringPrepRw op sqe fd addr len offset
  | .splice fdIn offIn fdOut offOut nbytes spliceFlags, sqe =>
    ioUringPrepSplice sqe fdIn offIn fdOut offOut nbytes spliceFlags
  | .tee fdIn fdOut nbytes spliceFlags, sqe => ioUringPrepTee sqe fdIn fdOut nbytes spliceFlags
  | .readv fd iovecs nrVecs offset, sqe => ioUringPrepReadv sqe fd iovecs nrVecs offset
  | .readv2 fd iovecs nrVecs offset flags, sqe => ioUringPrepReadv2 sqe fd iovecs nrVecs offset flags
  | .readFixed fd buf nbytes offset bufIndex, sqe => ioUringPrepReadFixed sqe fd buf nbytes offset bufIndex
  | .writev fd iovecs nrVecs offset, sqe => ioUringPrepWritev sqe fd iovecs nrVecs offset
  | .writev2 fd iovecs nrVecs offset flags, sqe => ioUringPrepWritev2 sqe fd iovecs nrVecs offset flags
  | .writeFixed fd buf nbytes offset bufIndex, sqe => ioUringPrepWriteFixed sqe fd buf nbytes offset bufIndex
  | .recvmsg fd msg flags, sqe => ioUringPrepRecvmsg sqe fd msg flags
  | .recvmsgMultishot fd msg flags, sqe => ioUringPrepRecvmsgMultishot sqe fd msg flags
  | .sendmsg fd msg flags, sqe => ioUringPrepSendmsg sqe fd msg flags
  | .pollAdd fd pollMask, sqe => ioUringPrepPollAdd sqe fd pollMask
  | .pollMultishot fd pollMask, sqe => ioUringPrepPollMultishot sqe fd pollMask
  | .pollRemove userData, sqe => ioUringPrepPollRemove sqe userData
  | .pollUpdate oldUserData newUserData pollMask flags, sqe =>
    ioUringPrepPollUpdate sqe oldUserData newUserData pollMask flags
  | .fsync fd fsyncFlags, sqe => ioUringPrepFsync sqe fd fsyncFlags
  | .nop, sqe => ioUringPrepNop sqe
  | .timeout ts count flags, sqe => ioUringPrepTimeout sqe ts count flags
  | .timeoutRemove userData flags, sqe => ioUringPrepTimeoutRemove sqe userData flags
  | .timeoutUpdate ts userData flags, sqe => ioUringPrepTimeoutUpdate sqe ts userData flags
  | .accept fd addr addrlen flags, sqe => ioUringPrepAccept sqe fd addr addrlen flags
  | .acceptDirect fd addr addrlen flags fileIndex, sqe =>
    ioUringPrepAcceptDirect sqe fd addr addrlen flags fileIndex
  | .multishotAccept fd addr addrlen flags, sqe => ioUringPrepMultishotAccept sqe fd addr addrlen flags
  | .multishotAcceptDirect fd addr addrlen flags, sqe =>
    ioUringPrepMultishotAcceptDirect sqe fd addr addrlen flags
  | .cancel64 userData flags, sqe => ioUringPrepCancel64 sqe userData flags
  | .cancel userData flags, sqe => ioUringPrepCancel sqe userData flags
  | .cancelFd fd flags, sqe => ioUringPrepCancelFd sqe fd flags
  | .linkTimeout ts flags, sqe => ioUringPrepLinkTimeout sqe ts flags
  | .connect fd addr addrlen, sqe => ioUringPrepConnect sqe fd addr addrlen
  | .filesUpdate fds nrFds offset, sqe => ioUringPrepFilesUpdate sqe fds nrFds offset
  | .fallocate fd mode offset len, sqe => ioUringPrepFallocate sqe fd mode offset len
  | .openat dfd path flags mode, sqe => ioUringPrepOpenat sqe dfd path flags mode
  | .openatDirect dfd path flags mode fileIndex, sqe => ioUringPrepOpenatDirect sqe dfd path flags mode fileIndex
  | .close fd, sqe => ioUringPrepClose sqe fd
  | .closeDirect fileIndex, sqe => ioUringPrepCloseDirect sqe fileIndex
  | .read fd buf nbytes offset, sqe => ioUringPrepRead sqe fd buf nbytes offset
  | .readMultishot fd nbytes offset bufGroup, sqe => ioUringPrepReadMultishot sqe fd nbytes offset bufGroup
  | .write fd buf nbytes offset, sqe => ioUringPrepWrite sqe fd buf nbytes offset
  | .statx dfd path flags mask statxbuf, sqe => ioUringPrepStatx sqe dfd path flags mask statxbuf
  | .fadvise fd offset len advice, sqe => ioUringPrepFadvise sqe fd offset len advice
  | .madvise addr length advice, sqe => ioUringPrepMadvise sqe addr length advice
  | .send sockfd buf len flags, sqe => ioUringPrepSend sqe sockfd buf len flags
  | .sendto sockfd buf len flags addr addrlen, sqe => ioUringPrepSendto sqe sockfd buf len flags addr addrlen
  | .sendZc sockfd buf len flags zcFlags, sqe => ioUringPrepSendZc sqe sockfd buf len flags zcFlags
  | .sendZcFixed sockfd buf len flags zcFlags bufIndex, sqe =>
    ioUringPrepSendZcFixed sqe sockfd buf len flags zcFlags bufIndex
  | .sendmsgZc fd msg flags, sqe => ioUringPrepSendmsgZc sqe fd msg flags
  | .recv sockfd buf len flags, sqe => ioUringPrepRecv sqe sockfd buf len flags
  | .recvMultishot sockfd buf len flags, sqe => ioUringPrepRecvMultishot sqe sockfd buf len flags
  | .openat2 dfd path how, sqe => ioUringPrepOpenat2 sqe dfd path how
  | .openat2Direct dfd path how fileIndex, sqe => ioUringPrepOpenat2Direct sqe dfd path how fileIndex
  | .epollCtl epfd fd op ev, sqe => ioUringPrepEpollCtl sqe epfd fd op ev
  | .provideBuffers addr len nr bgid bid, sqe => ioUringPrepProvideBuffers sqe addr len nr bgid bid
  | .removeBuffers nr bgid, sqe => ioUringPrepRemoveBuffers sqe nr bgid
  | .shutdown fd how, sqe => ioUringPrepShutdown sqe fd how
  | .unlinkat dfd path flags, sqe => ioUringPrepUnlinkat sqe dfd path flags
  | .unlink path flags, sqe => ioUringPrepUnlink sqe path flags
  | .renameat olddfd oldpath newdfd newpath flags, sqe =>
    ioUringPrepRenameat sqe olddfd oldpath newdfd newpath flags
  | .rename oldpath newpath, sqe => ioUringPrepRename sqe oldpath newpath
  | .syncFileRange fd len offset flags, sqe => ioUringPrepSyncFileRange sqe fd len offset flags
  | .mkdirat dfd path mode, sqe => ioUringPrepMkdirat sqe dfd path mode
  | .mkdir path mode, sqe => ioUringPrepMkdir sqe path mode
  | .symlinkat target newdirfd linkpath, sqe => ioUringPrepSymlinkat sqe target newdirfd linkpath
  | .symlink target linkpath, sqe => ioUringPrepSymlink sqe target linkpath
  | .linkat olddfd oldpath newdfd newpath flags, sqe => ioUringPrepLinkat sqe olddfd oldpath newdfd newpath flags
  | .link oldpath newpath flags, sqe => ioUringPrepLink sqe oldpath newpath flags
  | .msgRingCqeFlags fd len data flags cqeFlags, sqe => ioUringPrepMsgRingCqeFlags sqe fd len data flags cqeFlags
  | .msgRing fd len data flags, sqe => ioUringPrepMsgRing sqe fd len data flags
  | .msgRingFd fd sourceFd targetFd data flags, sqe => ioUringPrepMsgRingFd sqe fd sourceFd targetFd data flags
  | .msgRingFdAlloc fd sourceFd data flags, sqe => ioUringPrepMsgRingFdAlloc sqe fd sourceFd data flags
  | .getxattr name value path len, sqe => ioUringPrepGetxattr sqe name value path len
  | .setxattr name value path flags len, sqe => ioUringPrepSetxattr sqe name value path flags len
  | .fgetxattr fd name value len, sqe => ioUringPrepFgetxattr sqe fd name value len
  | .fsetxattr fd name value flags len, sqe => ioUringPrepFsetxattr sqe fd name value flags len
  | .socket domain type protocol flags, sqe => ioUringPrepSocket sqe domain type protocol flags
  | .socketDirect domain type protocol fileIndex flags, sqe =>
    ioUringPrepSocketDirect sqe domain type protocol fileIndex flags
  | .socketDirectAlloc domain type protocol flags, sqe => ioUringPrepSocketDirectAlloc sqe domain type protocol flags
  | .cmdSock cmdOp fd level optname optval optlen, sqe => ioUringPrepCmdSock sqe cmdOp fd level optname optval optlen
  | .waitid idtype id infop options flags, sqe => ioUringPrepWaitid sqe idtype id infop options flags
  | .futexWake futex val mask futexFlags flags, sqe => ioUringPrepFutexWake sqe futex val mask futexFlags flags
  | .futexWait futex val mask futexFlags flags, sqe => ioUringPrepFutexWait sqe futex val mask futexFlags flags
  | .futexWaitv futex nrFutex flags, sqe => ioUringPrepFutexWaitv sqe futex nrFutex flags
  | .fixedFdInstall fd flags, sqe => ioUringPrepFixedFdInstall sqe fd flags
  | .ftruncate fd len, sqe => ioUringPrepFtruncate sqe fd len

/-! ## Two slots after the same writes -/

namespace Sqe

/-- The two entries agree on every prepared byte. -/
def Agree (s₁ s₂ : Sqe) : Prop := Set.EqOn s₁.bytes s₂.bytes sqePrepared

/-- `t` keeps the bytes of `s` that are not prepared: `user_data`, and what lies past the first
64 bytes. -/
def Keeps (s t : Sqe) : Prop := ∀ j ∉ sqePrepared, t.bytes j = s.bytes j

/-- `t₁` and `t₂`, written over `s₁` and `s₂` by the same calls, agree where prepared and keep
their own slots elsewhere. -/
structure Fresh (s₁ s₂ t₁ t₂ : Sqe) : Prop where
  agree : Agree t₁ t₂
  keeps₁ : Keeps s₁ t₁
  keeps₂ : Keeps s₂ t₂

section
variable {s s₁ s₂ t t₁ t₂ : Sqe} {f : SqeField}

theorem eqOn_set_span (s₁ s₂ : Sqe) (f : SqeField) (v : Nat) :
    Set.EqOn (s₁.set f v).bytes (s₂.set f v).bytes f.span :=
  ByteMem.store_eqOn_span _ _ _ _ v

theorem eqOn_set_union {u : Set Nat} (h : Set.EqOn s₁.bytes s₂.bytes u) (f : SqeField) (v : Nat) :
    Set.EqOn (s₁.set f v).bytes (s₂.set f v).bytes (u ∪ f.span) :=
  ByteMem.store_eqOn_union h _ _ v

theorem Agree.set (h : Agree s₁ s₂) (f : SqeField) (v : Nat) : Agree (s₁.set f v) (s₂.set f v) :=
  ByteMem.store_eqOn h _ _ v

/-- An OR keeps agreement when it reads prepared bytes only. -/
theorem Agree.orIn (h : Agree s₁ s₂) (hf : f.Outside) (c : Nat) : Agree (s₁.orIn f c) (s₂.orIn f c) :=
  ByteMem.orStore_eqOn h (SqeField.span_subset_prepared hf) c

theorem Keeps.refl (s : Sqe) : Keeps s s := fun _ _ => rfl

theorem Keeps.set (h : Keeps s t) (hf : f.Outside) (v : Nat) : Keeps s (t.set f v) := fun j hj =>
  (ByteMem.store_apply_of_not_mem t.bytes (SqeField.not_mem_span hf hj) v).trans (h j hj)

theorem Keeps.orIn (h : Keeps s t) (hf : f.Outside) (c : Nat) : Keeps s (t.orIn f c) := fun j hj =>
  (ByteMem.orStore_apply_of_not_mem t.bytes (SqeField.not_mem_span hf hj) c).trans (h j hj)

theorem Fresh.set (h : Fresh s₁ s₂ t₁ t₂) (hf : f.Outside) (v : Nat) :
    Fresh s₁ s₂ (t₁.set f v) (t₂.set f v) :=
  ⟨h.agree.set f v, h.keeps₁.set hf v, h.keeps₂.set hf v⟩

theorem Fresh.orIn (h : Fresh s₁ s₂ t₁ t₂) (hf : f.Outside) (c : Nat) :
    Fresh s₁ s₂ (t₁.orIn f c) (t₂.orIn f c) :=
  ⟨h.agree.orIn hf c, h.keeps₁.orIn hf c, h.keeps₂.orIn hf c⟩

end

end Sqe

open SqeField in
/-- The members `io_uring_prep_rw` stores to cover every prepared byte. -/
theorem prepared_subset_prepRw_members :
    sqePrepared ⊆ opcode.span ∪ flags.span ∪ ioprio.span ∪ fd.span ∪ off.span ∪ addr.span ∪ len.span ∪
      rwFlags.span ∪ bufIndex.span ∪ personality.span ∪ fileIndex.span ∪ addr3.span ∪ pad2.span := by
  rintro j ⟨hj, hu⟩
  simp only [SqeField.span, ByteMem.mem_span, Set.mem_union, opcode, flags, ioprio, fd, off, addr, len,
    rwFlags, userData, bufIndex, personality, fileIndex, spliceFdIn, addr3, pad2] at hj hu ⊢
  omega

/-- `io_uring_prep_rw` makes any two slots agree on every prepared byte. -/
theorem agree_prepRw (op : Int32) (s₁ s₂ : Sqe) (fd : Int32) (addr : U64) (len : U32) (offset : U64) :
    (ioUringPrepRw op s₁ fd addr len offset).Agree (ioUringPrepRw op s₂ fd addr len offset) := by
  refine Set.EqOn.mono prepared_subset_prepRw_members ?_
  -- each store adds its member to the bytes where the two agree
  unfold ioUringPrepRw
  repeat apply Sqe.eqOn_set_union
  exact Sqe.eqOn_set_span _ _ _ _

/-- `io_uring_prep_rw` keeps `user_data` and the bytes after the entry. -/
theorem keeps_prepRw (op : Int32) (s : Sqe) (fd : Int32) (addr : U64) (len : U32) (offset : U64) :
    s.Keeps (ioUringPrepRw op s fd addr len offset) := by
  unfold ioUringPrepRw
  repeat (first | exact Sqe.Keeps.refl s | apply Sqe.Keeps.set | decide)

theorem fresh_prepRw (op : Int32) (s₁ s₂ : Sqe) (fd : Int32) (addr : U64) (len : U32) (offset : U64) :
    Sqe.Fresh s₁ s₂ (ioUringPrepRw op s₁ fd addr len offset) (ioUringPrepRw op s₂ fd addr len offset) :=
  ⟨agree_prepRw op s₁ s₂ fd addr len offset, keeps_prepRw op s₁ fd addr len offset,
    keeps_prepRw op s₂ fd addr len offset⟩

/-- Every helper prepares the same entry in any two slots, and keeps each slot's `user_data`. -/
theorem PrepCall.fresh (c : PrepCall) (s₁ s₂ : Sqe) : Sqe.Fresh s₁ s₂ (c.run s₁) (c.run s₂) := by
  -- each helper is `io_uring_prep_rw`, maybe through another helper, then stores and ORs
  cases c <;>
    simp only [PrepCall.run,
      __ioUringSetTargetFixedFile, ioUringPrepSplice, ioUringPrepTee, ioUringPrepReadv,
      ioUringPrepReadv2, ioUringPrepReadFixed, ioUringPrepWritev, ioUringPrepWritev2,
      ioUringPrepWriteFixed, ioUringPrepRecvmsg, ioUringPrepRecvmsgMultishot, ioUringPrepSendmsg,
      __ioUringPrepPollMask, ioUringPrepPollAdd, ioUringPrepPollMultishot, ioUringPrepPollRemove,
      ioUringPrepPollUpdate, ioUringPrepFsync, ioUringPrepNop, ioUringPrepTimeout,
      ioUringPrepTimeoutRemove, ioUringPrepTimeoutUpdate, ioUringPrepAccept,
      ioUringPrepAcceptDirect, ioUringPrepMultishotAccept, ioUringPrepMultishotAcceptDirect,
      ioUringPrepCancel64, ioUringPrepCancel, ioUringPrepCancelFd, ioUringPrepLinkTimeout,
      ioUringPrepConnect, ioUringPrepFilesUpdate, ioUringPrepFallocate, ioUringPrepOpenat,
      ioUringPrepOpenatDirect, ioUringPrepClose, ioUringPrepCloseDirect, ioUringPrepRead,
      ioUringPrepReadMultishot, ioUringPrepWrite, ioUringPrepStatx, ioUringPrepFadvise,
      ioUringPrepMadvise, ioUringPrepSend, ioUringPrepSendSetAddr, ioUringPrepSendto,
      ioUringPrepSendZc, ioUringPrepSendZcFixed, ioUringPrepSendmsgZc, ioUringPrepRecv,
      ioUringPrepRecvMultishot, ioUringPrepOpenat2, ioUringPrepOpenat2Direct, ioUringPrepEpollCtl,
      ioUringPrepProvideBuffers, ioUringPrepRemoveBuffers, ioUringPrepShutdown,
      ioUringPrepUnlinkat, ioUringPrepUnlink, ioUringPrepRenameat, ioUringPrepRename,
      ioUringPrepSyncFileRange, ioUringPrepMkdirat, ioUringPrepMkdir, ioUringPrepSymlinkat,
      ioUringPrepSymlink, ioUringPrepLinkat, ioUringPrepLink, ioUringPrepMsgRingCqeFlags,
      ioUringPrepMsgRing, ioUringPrepMsgRingFd, ioUringPrepMsgRingFdAlloc, ioUringPrepGetxattr,
      ioUringPrepSetxattr, ioUringPrepFgetxattr, ioUringPrepFsetxattr, ioUringPrepSocket,
      ioUringPrepSocketDirect, ioUringPrepSocketDirectAlloc, ioUringPrepCmdSock, ioUringPrepWaitid,
      ioUringPrepFutexWake, ioUringPrepFutexWait, ioUringPrepFutexWaitv, ioUringPrepFixedFdInstall,
      ioUringPrepFtruncate] <;>
    -- with the helpers unfolded the steps are syntactic: `io_uring_prep_rw` is not unfolded
    repeat (first
      | with_reducible apply fresh_prepRw
      | with_reducible apply Sqe.Fresh.set
      | with_reducible apply Sqe.Fresh.orIn
      | decide)

/-- Each helper that prepares a fresh entry, called with the same arguments on two slots with any
earlier contents, leaves them byte for byte the same in the 64 bytes of the entry but
`user_data`; and it leaves `user_data` and the bytes after the entry as they were. -/
theorem prep_fresh_sqe (c : PrepCall) (s₁ s₂ : Sqe) :
    (∀ j < 64, j ∉ SqeField.userData.span → (c.run s₁).bytes j = (c.run s₂).bytes j) ∧
    (∀ j, j ∈ SqeField.userData.span ∨ 64 ≤ j → (c.run s₁).bytes j = s₁.bytes j) := by
  have h := PrepCall.fresh c s₁ s₂
  refine ⟨fun j hj hu => h.agree ⟨ByteMem.mem_span.2 ⟨Nat.zero_le j, hj⟩, hu⟩, fun j hj => h.keeps₁ j ?_⟩
  -- a byte of `user_data` or past the entry is not prepared
  rintro ⟨hj64, hu⟩
  rw [ByteMem.mem_span] at hj64
  rcases hj with hj | hj
  · exact hu hj
  · omega

example : (ioUringPrepNop ⟨fun _ => 7⟩).bytes 4 = 0xff ∧ (ioUringPrepNop ⟨fun _ => 7⟩).bytes 32 = 7 := by
  decide

/-! ## What the kernel reads -/

namespace Sqe

theorem get_set_self (sqe : Sqe) (f : SqeField) (v : Nat) : (sqe.set f v).get f = v % 256 ^ f.size :=
  ByteMem.load_store_self _ _ _ v

theorem get_set_of_disjoint {f g : SqeField} (h : f.Disjoint g) (sqe : Sqe) (v : Nat) :
    (sqe.set g v).get f = sqe.get f :=
  ByteMem.load_store_of_disjoint _ h v

theorem get_orIn_self (sqe : Sqe) (f : SqeField) (c : Nat) :
    (sqe.orIn f c).get f = (sqe.get f ||| c) % 256 ^ f.size :=
  ByteMem.load_orStore_self _ _ _ c

theorem get_orIn_of_disjoint {f g : SqeField} (h : f.Disjoint g) (sqe : Sqe) (c : Nat) :
    (sqe.orIn g c).get f = sqe.get f :=
  ByteMem.load_orStore_of_disjoint _ h c

end Sqe

/-- A value no wider than a member reads back as itself. -/
theorem toNat_mod_256_pow {w : Nat} (x : BitVec w) {k : Nat} (h : w ≤ 8 * k) : x.toNat % 256 ^ k = x.toNat := by
  have hk : 2 ^ w ≤ 256 ^ k := by
    rw [show (256 : Nat) = 2 ^ 8 from rfl, ← pow_mul]
    exact Nat.pow_le_pow_right (by decide) h
  exact Nat.mod_eq_of_lt (lt_of_lt_of_le x.isLt hk)

/-- The entry `io_uring_prep_rw` prepares, as the kernel reads it: the opcode as a byte, the
descriptor, offset, address and length it was given, every other member zero, and `user_data`
as it was. None of the thirteen stores overwrites another. -/
theorem ioUringPrepRw_get (op : Int32) (sqe : Sqe) (fd : Int32) (addr : U64) (len : U32) (offset : U64) :
    let e := ioUringPrepRw op sqe fd addr len offset
    e.get .opcode = (op.toBitVec.setWidth 8).toNat ∧ e.get .flags = 0 ∧ e.get .ioprio = 0 ∧
      e.get .fd = fd.toBitVec.toNat ∧ e.get .off = offset.toNat ∧ e.get .addr = addr.toNat ∧
      e.get .len = len.toNat ∧ e.get .rwFlags = 0 ∧ e.get .bufIndex = 0 ∧ e.get .personality = 0 ∧
      e.get .fileIndex = 0 ∧ e.get .addr3 = 0 ∧ e.get .pad2 = 0 ∧ e.get .userData = sqe.get .userData := by
  intro e
  -- each member is read back from its own store, past the later stores to other members
  simp (disch := decide) only [e, ioUringPrepRw, Sqe.get_set_self, Sqe.get_set_of_disjoint, Nat.zero_mod,
    toNat_mod_256_pow, BitVec.toNat_setWidth, and_true]
  -- what is left is the opcode: one byte, and the `__u8` cast keeps eight bits
  rfl

/-- What a direct helper makes of the index it is given, as `sqe->file_index` has it: fixed
file `index` is asked for as `index + 1`, and an allocated slot as IORING_FILE_INDEX_ALLOC itself. -/
theorem setTargetFixedFile_alloc_get (sqe : Sqe) (i : U32) :
    (__ioUringSetTargetFixedFile sqe (if i = IORING_FILE_INDEX_ALLOC then i - 1 else i)).get .fileIndex =
      if i = IORING_FILE_INDEX_ALLOC then IORING_FILE_INDEX_ALLOC.toNat else i.toNat + 1 := by
  unfold __ioUringSetTargetFixedFile
  rw [Sqe.get_set_self, toNat_mod_256_pow _ (by decide)]
  split
  case isTrue h =>
    subst h
    decide
  case isFalse h =>
    -- an index other than the all-ones one does not wrap when incremented
    have hone : (1 : U32).toNat = 1 := BitVec.toNat_one (by decide)
    have hne : i.toNat ≠ IORING_FILE_INDEX_ALLOC.toNat := BitVec.toNat_ne_iff_ne.2 h
    have halloc : IORING_FILE_INDEX_ALLOC.toNat = 2 ^ 32 - 1 := by decide
    have hfit : i.toNat + (1 : U32).toNat < 2 ^ 32 := by have := i.isLt; omega
    rw [BitVec.toNat_add_of_lt hfit, hone]

/-- The direct helpers cannot ask for fixed file IORING_FILE_INDEX_ALLOC - 1: that index
prepares the same entry as IORING_FILE_INDEX_ALLOC, which asks the kernel to allocate a slot. -/
theorem direct_alloc_pred_eq_alloc (sqe : Sqe) (fd dfd domain type protocol flags : Int32) (addr addrlen path how : U64)
    (mode socketFlags : U32) :
    ioUringPrepAcceptDirect sqe fd addr addrlen flags (IORING_FILE_INDEX_ALLOC - 1) =
        ioUringPrepAcceptDirect sqe fd addr addrlen flags IORING_FILE_INDEX_ALLOC ∧
      ioUringPrepOpenatDirect sqe dfd path flags mode (IORING_FILE_INDEX_ALLOC - 1) =
        ioUringPrepOpenatDirect sqe dfd path flags mode IORING_FILE_INDEX_ALLOC ∧
      ioUringPrepOpenat2Direct sqe dfd path how (IORING_FILE_INDEX_ALLOC - 1) =
        ioUringPrepOpenat2Direct sqe dfd path how IORING_FILE_INDEX_ALLOC ∧
      ioUringPrepSocketDirect sqe domain type protocol (IORING_FILE_INDEX_ALLOC - 1) socketFlags =
        ioUringPrepSocketDirect sqe domain type protocol IORING_FILE_INDEX_ALLOC socketFlags := by
  -- both indices reach __io_uring_set_target_fixed_file as IORING_FILE_INDEX_ALLOC - 1
  have hi : (IORING_FILE_INDEX_ALLOC - 1 = IORING_FILE_INDEX_ALLOC) = False := eq_false (by decide)
  simp only [ioUringPrepAcceptDirect, ioUringPrepOpenatDirect, ioUringPrepOpenat2Direct, ioUringPrepSocketDirect,
    hi, if_false, if_true, and_self]

/-- The allocating variant is the direct one given IORING_FILE_INDEX_ALLOC. -/
theorem ioUringPrepSocketDirectAlloc_eq (sqe : Sqe) (domain type protocol : Int32) (flags : U32) :
    ioUringPrepSocketDirectAlloc sqe domain type protocol flags =
      ioUringPrepSocketDirect sqe domain type protocol IORING_FILE_INDEX_ALLOC flags := by
  simp only [ioUringPrepSocketDirectAlloc, ioUringPrepSocketDirect, if_true]

/-- What the kernel reads from the member a helper ORs a flag into. The multishot helpers OR it into
a member their base left zero, so the member is the flag. io_uring_prep_send_zc_fixed ORs it into
`ioprio = zc_flags`, a 16-bit member, so only the low 16 bits of `zc_flags` reach the kernel. -/
theorem orIn_flag_get (sqe : Sqe) (fd : Int32) (buf len addr addrlen msg : U64) (flags : Int32) (msgFlags : U32)
    (nbytes : U32) (offset : U64) (bufGroup : Int32) (zcFlags bufIndex : U32) :
    (ioUringPrepRecvMultishot sqe fd buf len flags).get .ioprio = IORING_RECV_MULTISHOT.toNat ∧
      (ioUringPrepRecvmsgMultishot sqe fd msg msgFlags).get .ioprio = IORING_RECV_MULTISHOT.toNat ∧
      (ioUringPrepMultishotAccept sqe fd addr addrlen flags).get .ioprio = IORING_ACCEPT_MULTISHOT.toNat ∧
      (ioUringPrepReadMultishot sqe fd nbytes offset bufGroup).get .flags = IOSQE_BUFFER_SELECT.toNat ∧
      (ioUringPrepSendZcFixed sqe fd buf len flags zcFlags bufIndex).get .ioprio =
        (zcFlags.toNat % 2 ^ 16) ||| IORING_RECVSEND_FIXED_BUF.toNat := by
  simp (disch := decide) only [ioUringPrepRecvMultishot, ioUringPrepRecv, ioUringPrepRecvmsgMultishot,
    ioUringPrepRecvmsg, ioUringPrepMultishotAccept, ioUringPrepAccept, ioUringPrepReadMultishot,
    ioUringPrepSendZcFixed, ioUringPrepSendZc, ioUringPrepRw, Sqe.get_orIn_self, Sqe.get_set_self,
    Sqe.get_set_of_disjoint, Nat.zero_mod, Nat.zero_or]
  refine ⟨by decide, by decide, by decide, by decide, ?_⟩
  -- `zc_flags` cut to the member and the flag both fit sixteen bits, so their OR does
  show (zcFlags.toNat % 2 ^ 16 ||| _) % 2 ^ 16 = _
  exact Nat.mod_eq_of_lt (Nat.or_lt_two_pow (Nat.mod_lt _ (by decide)) (by decide))

end Liburing
