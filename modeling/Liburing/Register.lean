import Liburing.RingFd
/-!
# Registering files, probing opcodes, eventfd notification, the version check (register.c:108-196; liburing.h:152-158, :1279-1316, :1532; version.c)

| here | there |
| --- | --- |
| `RegSys` | what a registration sees: the kernel's answers to `io_uring_register`, what `getrlimit(RLIMIT_NOFILE)` returns, and the calls made |
| `__sysIoUringRegister` | `__sys_io_uring_register`, with the kernel's next answer |
| `increaseRlimitNofile` | `increase_rlimit_nofile` (register.c:108) |
| `registerFilesLoop`, `registerFilesRetry` | the `do … while (1)` loop that `io_uring_register_files`, `_tags` and `_sparse` share, with `did_increase` and the opcode each registers |
| `ioUringRegisterFiles`, `ioUringRegisterFilesTags`, `ioUringRegisterFilesSparse` | register.c:173, :148, :125 |
| `opFlagsOffset`, `probeLen` | the offset of `p->ops[op].flags` from the probe; the bytes `io_uring_get_probe_ring` allocates (setup.c:460) |
| `ioUringOpcodeSupported` | `io_uring_opcode_supported` (liburing.h:152), reading the probe through a function |
| `ioUringCqEventfdEnabled`, `ioUringCqEventfdToggle` | liburing.h:1279, :1291, on `*cq->kflags`, `none` when `cq->kflags` is NULL |
| `IO_URING_CHECK_VERSION`, `ioUringCheckVersion` | liburing.h:1532, version.c:17, with the library's version as arguments |

The loop of the three file registrations ends because its one `continue` sets `did_increase`:
the pass after it leaves whatever the kernel answers (`registerFilesLoop_true`). So a
registration goes round at most twice, once more after `-EMFILE`, having raised the soft
RLIMIT_NOFILE to `rlim_cur + nr` when it was below `nr` (`register_files_retries_once`).
The probe, eventfd and version functions are modelled as the code has them; the docstrings say
what follows from the code where it departs from the manual pages.
-/
set_option linter.style.nameCheck false

namespace Liburing

/-! ## Registering files -/

/-- The kernel's answers to `io_uring_register`, what `getrlimit(RLIMIT_NOFILE)` returns (its
error, or `rlim_cur`), and the calls made: the registrations, and the soft limits passed to
`setrlimit`. -/
structure RegSys where
  answers : List Int32
  nofile : Except Int32 U64
  registers : List RegisterCall
  setrlimits : List U64

/-- `__sys_io_uring_register`: the kernel's next answer, with the call logged. -/
def __sysIoUringRegister (call : RegisterCall) (s : RegSys) : Option (Int32 × RegSys) :=
  match s.answers with
  | [] => none
  | ret :: rest => some (ret, { s with answers := rest, registers := s.registers ++ [call] })

/-- `increase_rlimit_nofile`; its return value is never read. -/
def increaseRlimitNofile (nr : U32) (s : RegSys) : RegSys :=
  match s.nofile with
  | .error _ => s
  | .ok cur =>
    if cur < nr.setWidth 64 then { s with setrlimits := s.setrlimits ++ [cur + nr.setWidth 64] } else s

/-- The `do … while (1)` loop the file registrations share (register.c:133-143), from a pass
with `did_increase` as given: register; leave on success; on `-EMFILE` with `did_increase`
still 0, set it, raise the limit and `continue`; leave otherwise. Only `continue` goes round
again, and it sets `did_increase`, which is what ends the loop. -/
def registerFilesLoop (r : RingFds) (opcode nr : U32) (didIncrease : Bool) (s : RegSys) :
    Option (Int32 × RegSys) :=
  match __sysIoUringRegister (doRegister r opcode) s with
  | none => none
  | some (ret, s) =>
    if ret ≥ 0 then some (ret, s)
    else if _hcont : ret = -EMFILE ∧ didIncrease = false then
      registerFilesLoop r opcode nr true (increaseRlimitNofile nr s)
    else some (ret, s)
termination_by cond didIncrease 0 1
decreasing_by rw [_hcont.2]; decide

/-- The loop as the file registrations enter it, with `did_increase = 0`. -/
def registerFilesRetry (r : RingFds) (opcode nr : U32) (s : RegSys) : Option (Int32 × RegSys) :=
  registerFilesLoop r opcode nr false s

/-- `io_uring_register_files`. -/
def ioUringRegisterFiles (r : RingFds) (nrFiles : U32) : RegSys → Option (Int32 × RegSys) :=
  registerFilesRetry r IORING_REGISTER_FILES nrFiles

/-- `io_uring_register_files_tags`. -/
def ioUringRegisterFilesTags (r : RingFds) (nr : U32) : RegSys → Option (Int32 × RegSys) :=
  registerFilesRetry r IORING_REGISTER_FILES2 nr

/-- `io_uring_register_files_sparse`. -/
def ioUringRegisterFilesSparse (r : RingFds) (nr : U32) : RegSys → Option (Int32 × RegSys) :=
  registerFilesRetry r IORING_REGISTER_FILES2 nr

section
variable {call : RegisterCall} {s s' : RegSys} {ret : Int32}

theorem sysIoUringRegister_some (h : __sysIoUringRegister call s = some (ret, s')) :
    s.answers = ret :: s'.answers ∧ s'.registers = s.registers ++ [call] ∧ s'.nofile = s.nofile ∧
      s'.setrlimits = s.setrlimits := by
  unfold __sysIoUringRegister at h
  split at h
  · cases h
  · rename_i ret' rest hs
    obtain ⟨rfl, rfl⟩ := Prod.mk.inj (Option.some.inj h)
    exact ⟨hs, rfl, rfl, rfl⟩

/-- `increase_rlimit_nofile` answers nothing and registers nothing; it sets at most one soft
limit, `rlim_cur + nr`, when `rlim_cur` is below `nr`, and that sum does not wrap. -/
theorem increaseRlimitNofile_spec (nr : U32) (s : RegSys) :
    (increaseRlimitNofile nr s).answers = s.answers ∧ (increaseRlimitNofile nr s).registers = s.registers ∧
      ∃ raised, (increaseRlimitNofile nr s).setrlimits = s.setrlimits ++ raised ∧ raised.length ≤ 1 ∧
        ∀ v ∈ raised, ∃ cur, s.nofile = .ok cur ∧ cur < nr.setWidth 64 ∧ v.toNat = cur.toNat + nr.toNat := by
  unfold increaseRlimitNofile
  split
  · exact ⟨rfl, rfl, [], by simp, by simp, by simp⟩
  · rename_i cur hcur
    split
    · rename_i hlt
      refine ⟨rfl, rfl, [cur + nr.setWidth 64], rfl, by simp, fun v hv => ⟨cur, hcur, hlt, ?_⟩⟩
      rw [List.mem_singleton.1 hv]
      -- `rlim_cur < nr < 2 ^ 32`, so the 64-bit sum is exact
      have hlt' := BitVec.lt_def.1 hlt
      rw [BitVec.toNat_setWidth, Nat.mod_eq_of_lt (by omega)] at hlt'
      rw [BitVec.toNat_add, BitVec.toNat_setWidth, Nat.mod_eq_of_lt (by omega : nr.toNat < 2 ^ 64),
        Nat.mod_eq_of_lt (by omega)]
    · exact ⟨rfl, rfl, [], by simp, by simp, by simp⟩

end

/-- With `did_increase` set a pass registers once and leaves, whatever the answer. -/
theorem registerFilesLoop_true (r : RingFds) (opcode nr : U32) (s : RegSys) :
    registerFilesLoop r opcode nr true s = __sysIoUringRegister (doRegister r opcode) s := by
  rw [registerFilesLoop]
  cases __sysIoUringRegister (doRegister r opcode) s with
  | none => rfl
  | some res =>
    obtain ⟨ret, s1⟩ := res
    dsimp only
    split
    · rfl
    · rw [dif_neg (by simp)]

/-- A run of the loop from a pass with `did_increase` as given: one registration whose answer it
returns, which is not `-EMFILE` unless `did_increase` was set; or, from `did_increase = 0`,
`-EMFILE`, at most one raise of the soft limit to `rlim_cur + nr`, and one more registration
whose answer it returns. The induction follows the loop: the pass that continues reaches a pass
with `did_increase` set, which leaves at once. -/
theorem registerFilesLoop_cases (r : RingFds) (opcode nr : U32) (d : Bool) (s s' : RegSys) (ret : Int32) :
    registerFilesLoop r opcode nr d s = some (ret, s') →
      (s.answers = ret :: s'.answers ∧ (ret ≠ -EMFILE ∨ d = true) ∧
          s'.registers = s.registers ++ [doRegister r opcode] ∧ s'.setrlimits = s.setrlimits) ∨
        (d = false ∧ s.answers = -EMFILE :: ret :: s'.answers ∧
          s'.registers = s.registers ++ [doRegister r opcode, doRegister r opcode] ∧
          ∃ raised, s'.setrlimits = s.setrlimits ++ raised ∧ raised.length ≤ 1 ∧
            ∀ v ∈ raised, ∃ cur, s.nofile = .ok cur ∧ cur < nr.setWidth 64 ∧ v.toNat = cur.toNat + nr.toNat) := by
  fun_induction registerFilesLoop r opcode nr d s with
  | case1 d s hnone =>
    intro h
    cases h
  | case2 d s0 ret1 s1 hreg hnn =>
    -- registered: the loop leaves with the answer
    intro h
    obtain ⟨rfl, rfl⟩ := Prod.mk.inj (Option.some.inj h)
    obtain ⟨ha, hr, -, hl⟩ := sysIoUringRegister_some hreg
    exact .inl ⟨ha, .inl fun he => absurd hnn (by rw [he]; decide), hr, hl⟩
  | case3 d s0 ret1 s1 hreg hnn hcont ih =>
    -- `continue` after `-EMFILE`: the next pass has `did_increase` set and leaves
    intro h
    obtain ⟨ha1, hr1, hn1, hl1⟩ := sysIoUringRegister_some hreg
    obtain ⟨hai, hri, raised, hli, hlen, hraised⟩ := increaseRlimitNofile_spec nr s1
    rcases ih h with ⟨ha2, -, hr2, hl2⟩ | ⟨hne, -⟩
    · refine .inr ⟨hcont.2, by rw [ha1, hcont.1, ← hai, ha2], by rw [hr2, hri, hr1, List.append_assoc]; rfl,
        raised, by rw [hl2, hli, hl1], hlen, fun v hv => ?_⟩
      obtain ⟨cur, hcur, hlt, hv⟩ := hraised v hv
      exact ⟨cur, hn1 ▸ hcur, hlt, hv⟩
    · cases hne
  | case4 d s0 ret1 s1 hreg hnn hstop =>
    -- any other failure, or `-EMFILE` once `did_increase` is set: the loop leaves with it
    intro h
    obtain ⟨rfl, rfl⟩ := Prod.mk.inj (Option.some.inj h)
    obtain ⟨ha, hr, -, hl⟩ := sysIoUringRegister_some hreg
    refine .inl ⟨ha, ?_, hr, hl⟩
    by_cases hem : ret1 = -EMFILE
    · exact .inr (by simpa using fun hd => hstop ⟨hem, hd⟩)
    · exact .inl hem

/-- A file registration makes one registration, whose answer it returns unless it is `-EMFILE`;
after `-EMFILE` it raises the soft limit, only when it was below `nr` and to `rlim_cur + nr`,
and makes exactly one more, whose answer it returns. -/
theorem register_files_retries_once (r : RingFds) (opcode nr : U32) (s s' : RegSys) (ret : Int32)
    (h : registerFilesRetry r opcode nr s = some (ret, s')) :
    (s.answers = ret :: s'.answers ∧ ret ≠ -EMFILE ∧ s'.registers = s.registers ++ [doRegister r opcode] ∧
        s'.setrlimits = s.setrlimits) ∨
      (s.answers = -EMFILE :: ret :: s'.answers ∧
        s'.registers = s.registers ++ [doRegister r opcode, doRegister r opcode] ∧
        ∃ raised, s'.setrlimits = s.setrlimits ++ raised ∧ raised.length ≤ 1 ∧
          ∀ v ∈ raised, ∃ cur, s.nofile = .ok cur ∧ cur < nr.setWidth 64 ∧ v.toNat = cur.toNat + nr.toNat) := by
  -- the loop is entered with `did_increase = 0`
  rcases registerFilesLoop_cases r opcode nr false s s' ret h with ⟨ha, hne, hr, hl⟩ | ⟨-, rest⟩
  · exact .inl ⟨ha, hne.resolve_right Bool.false_ne_true, hr, hl⟩
  · exact .inr rest

/-- The kernel refuses the files for the limit, then takes them. -/
def regEnvEmfile : RegSys := ⟨[-EMFILE, 16], .ok 8, [], []⟩

theorem register_files_retries_once_sixteen :
    ioUringRegisterFiles ⟨3, 3, 0, 0⟩ 16 regEnvEmfile =
        some (16, ⟨[], .ok 8, [⟨3, IORING_REGISTER_FILES⟩, ⟨3, IORING_REGISTER_FILES⟩], [24]⟩) ∧
      ((regEnvEmfile.answers = 16 :: [] ∧ (16 : Int32) ≠ -EMFILE ∧
          ([⟨3, IORING_REGISTER_FILES⟩, ⟨3, IORING_REGISTER_FILES⟩] : List RegisterCall) =
            regEnvEmfile.registers ++ [doRegister ⟨3, 3, 0, 0⟩ IORING_REGISTER_FILES] ∧
          ([24] : List U64) = regEnvEmfile.setrlimits) ∨
        (regEnvEmfile.answers = -EMFILE :: 16 :: [] ∧
          ([⟨3, IORING_REGISTER_FILES⟩, ⟨3, IORING_REGISTER_FILES⟩] : List RegisterCall) =
            regEnvEmfile.registers ++ [doRegister ⟨3, 3, 0, 0⟩ IORING_REGISTER_FILES,
              doRegister ⟨3, 3, 0, 0⟩ IORING_REGISTER_FILES] ∧
          ∃ raised, ([24] : List U64) = regEnvEmfile.setrlimits ++ raised ∧ raised.length ≤ 1 ∧
            ∀ v ∈ raised, ∃ cur, regEnvEmfile.nofile = .ok cur ∧ cur < (16 : U32).setWidth 64 ∧
              v.toNat = cur.toNat + (16 : U32).toNat)) := by
  have h : ioUringRegisterFiles ⟨3, 3, 0, 0⟩ 16 regEnvEmfile =
      some (16, ⟨[], .ok 8, [⟨3, IORING_REGISTER_FILES⟩, ⟨3, IORING_REGISTER_FILES⟩], [24]⟩) := by
    -- the first pass continues after `-EMFILE`; the second leaves with 16
    rw [ioUringRegisterFiles, registerFilesRetry, registerFilesLoop]
    simp only [registerFilesLoop_true]
    rfl
  exact ⟨h, register_files_retries_once ⟨3, 3, 0, 0⟩ IORING_REGISTER_FILES 16 regEnvEmfile _ 16 h⟩

/-! ## Probing opcodes -/

/-- The offset of `p->ops[op].flags` from the probe: the ops follow the header's 16 bytes, 8
bytes each, with `flags` 2 bytes into its op. -/
def opFlagsOffset (op : Int32) : Int := 16 + 8 * op.toInt + 2

/-- `sizeof(*probe) + 256 * sizeof(struct io_uring_probe_op)`, what `io_uring_get_probe_ring`
allocates. -/
def probeLen : Nat := 16 + 256 * 8

/-- `io_uring_opcode_supported`: `lastOp` is `p->last_op`, and `read` gives the 16-bit word at
an offset from the probe. Only `op > last_op` is refused, so a negative `op` reads before the
ops, and from `op = -3` on down before the probe. -/
def ioUringOpcodeSupported (lastOp : U8) (read : Int → U16) (op : Int32) : Bool :=
  if op.toInt > lastOp.toNat then false
  else hasFlag (read (opFlagsOffset op)) IO_URING_OP_SUPPORTED

/-! ## Eventfd notification -/

/-- `io_uring_cq_eventfd_enabled`. -/
def ioUringCqEventfdEnabled (kflags : Option U32) : Bool :=
  match kflags with
  | none => true
  | some f => !hasFlag f IORING_CQ_EVENTFD_DISABLED

/-- `io_uring_cq_eventfd_toggle`: the return value, and `*cq->kflags` after. -/
def ioUringCqEventfdToggle (kflags : Option U32) (enabled : Bool) : Int32 × Option U32 :=
  if enabled = ioUringCqEventfdEnabled kflags then (0, kflags)
  else match kflags with
    | none => (-EOPNOTSUPP, none)
    | some f => (0, some (if enabled then f &&& ~~~IORING_CQ_EVENTFD_DISABLED else f ||| IORING_CQ_EVENTFD_DISABLED))

/-! ## Checking the library's version -/

/-- `IO_URING_CHECK_VERSION(major, minor)` (liburing.h:1532), against the version
`IO_URING_VERSION_MAJOR.IO_URING_VERSION_MINOR` that `configure` writes from `liburing.spec`. -/
def IO_URING_CHECK_VERSION (libMajor libMinor major minor : Int32) : Bool :=
  major > libMajor || (major == libMajor && minor >= libMinor)

/-- `io_uring_check_version` (version.c:17): the same comparison, against what
`io_uring_major_version()` and `io_uring_minor_version()` of the loaded library return. It holds
when the version asked for is at least the library's, where io_uring_check_version(3) says the
library is to be at least the version asked for. -/
def ioUringCheckVersion (libMajor libMinor major minor : Int32) : Bool :=
  IO_URING_CHECK_VERSION libMajor libMinor major minor

end Liburing
