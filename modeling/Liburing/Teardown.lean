import Liburing.Setup
/-!
# What `io_uring_queue_exit` releases (setup.c:205-358, :424-452)

| here | there |
| --- | --- |
| `exitSqesBytes` | `sqe_size * sq->ring_entries`, what exit unmaps at `sq->sqes` when `!sq->ring_sz` |
| `regionsAfterExit` | the mappings left once a setup, and on success its exit, have run |
| `unmapRingsCalls` | the `__sys_munmap` calls of `io_uring_unmap_rings` |
| `queueExitCalls` | the `__sys_munmap` calls of `io_uring_queue_exit` |
| `Sys.Sane` | what the kernel's answers to `mmap` and `io_uring_setup` satisfy |

The memory of a ring is released by `io_uring_queue_exit`, which rebuilds the layout from
`sq->ring_sz`, `INT_FLAG_APP_MEM` and the ring's entries. Read as calls on the address space of
`Vm/Regions.lean`:

* a ring set up by `io_uring_queue_init_mem` in a caller's buffer has one region, so
  `sq->ring_sz` is 0 and exit takes the first branch, which does not look at `INT_FLAG_APP_MEM`:
  it unmaps the caller's buffer (`queueExit_initMem_calls`);
* a ring of one region that `io_uring_alloc_huge` put in a huge page is unmapped by a length that
  is rarely a multiple of the huge-page size, so the huge page stays mapped
  (`queueExit_keeps_huge`); the failure path's `munmap(sq->sqes, 1)` has the same effect;
* under IORING_SETUP_SQE128 exit unmaps `64 * entries` bytes of SQEs that `io_uring_mmap`
  mapped with `128 * entries`.

When the kernel maps the rings, every error path of setup releases what it mapped, whatever the
SQE size; and when the SQEs have 64 bytes exit releases the rest, so a setup and its exit leave
the address space as they found it (`queueInit_exit_regions`).
-/
set_option linter.style.nameCheck false

namespace Liburing

open AddrSpace

/-- The SQE bytes `io_uring_queue_exit` unmaps for a ring without `sq->ring_sz`. -/
def exitSqesBytes (ring : RingSetup) : U64 :=
  (if hasFlag ring.flags IORING_SETUP_SQE128 then 64 + 64 else 64) * ring.mem.ringEntries.setWidth 64

/-- The SQE bytes as a number: the entries are 32-bit, so the product does not wrap. -/
theorem exitSqesBytes_toNat (ring : RingSetup) :
    (exitSqesBytes ring).toNat = (if hasFlag ring.flags IORING_SETUP_SQE128 then 128 else 64) * ring.mem.ringEntries.toNat := by
  have hlt := ring.mem.ringEntries.isLt
  unfold exitSqesBytes
  -- for either SQE size the same bound: at most 128 times a 32-bit count
  split <;> rw [BitVec.toNat_mul, BitVec.toNat_setWidth, Nat.mod_eq_of_lt (by omega : ring.mem.ringEntries.toNat < 2 ^ 64)] <;>
    exact Nat.mod_eq_of_lt (by simp; omega)

/-- The mappings left from `space` once a setup, and on success its exit, have run, with the
setup's return value. -/
def regionsAfterExit (page : Nat) (space : List Region) (r : Option ((Int32 × IoUringParams × RingSetup) × Sys)) :
    Option (Int32 × List Region) :=
  r.map fun ((ret, _, ring), s) =>
    (ret, replay page hugePageSize.toNat space (memCalls (if ret ≥ 0 then ioUringQueueExit ring s else s).log))

/-- The unmaps of `io_uring_unmap_rings`, as (address, length) pairs. -/
def unmapRingsCalls (m : RingMem) : List (Nat × Nat) :=
  (if m.sqRingSz ≠ 0 then [(m.sqRingPtr.toNat, m.sqRingSz.toNat)] else []) ++
    if m.cqRingPtr ≠ 0 ∧ m.cqRingSz ≠ 0 ∧ m.cqRingPtr ≠ m.sqRingPtr then [(m.cqRingPtr.toNat, m.cqRingSz.toNat)] else []

/-- The unmaps of `io_uring_queue_exit`, as (address, length) pairs. -/
def queueExitCalls (ring : RingSetup) : List (Nat × Nat) :=
  if ring.mem.sqRingSz = 0 then (ring.mem.sqes.toNat, (exitSqesBytes ring).toNat) :: unmapRingsCalls ring.mem
  else if !hasFlag ring.fds.intFlags INT_FLAG_APP_MEM then
    (ring.mem.sqes.toNat, (ring.mem.ringEntries.setWidth 64 * 64).toNat) :: unmapRingsCalls ring.mem
  else []

/-- What the kernel guarantees of its answers: `mmap` returns an address that is not 0 and not
one it returned before, and a successful `io_uring_setup` reports rings with entries. -/
structure Sys.Sane (s : Sys) : Prop where
  addrs_nodup : (s.mmaps.filterMap Except.toOption).Nodup
  addr_ne_zero : ∀ a, Except.ok a ∈ s.mmaps → a ≠ 0
  sq_ne_zero : ∀ k ∈ s.setups, 0 ≤ k.ret → k.sqEntries ≠ 0
  cq_ne_zero : ∀ k ∈ s.setups, 0 ≤ k.ret → k.cqEntries ≠ 0

/-! ## Exit of a ring of one region -/

/-- For a ring of one region exit unmaps `exitSqesBytes` at `sq->sqes`, and nothing else. -/
theorem memCalls_queueExit_one_region (ring : RingSetup) (s : Sys) (h0 : ring.mem.sqRingSz = 0)
    (h1 : ring.mem.cqRingSz = 0) :
    memCalls (ioUringQueueExit ring s).log = memCalls s.log ++ [.munmap ring.mem.sqes.toNat (exitSqesBytes ring).toNat] := by
  rw [memCalls_queueExit, queueExitUnmap_one_region ring s h0 h1]
  simp [__sysMunmap, memCalls, exitSqesBytes]

/-- A ring set up in a caller's buffer is exited by unmapping the buffer, although
INT_FLAG_APP_MEM says the library does not own it. -/
theorem queueExit_initMem_calls {entries : U32} {p p' : IoUringParams} {pageSize buf bufSize : U64} {s s' : Sys}
    {ret : Int32} {ring : RingSetup} (hbuf : buf ≠ 0)
    (h : ioUringQueueInitMem entries p pageSize buf bufSize s = some ((ret, p', ring), s')) (hret : 0 ≤ ret) :
    hasFlag ring.fds.intFlags INT_FLAG_APP_MEM = true ∧
      memCalls (ioUringQueueExit ring s').log = memCalls s'.log ++ [.munmap buf.toNat (exitSqesBytes ring).toNat] := by
  obtain ⟨hsqes, h0, h1, happ⟩ := initMem_buf hbuf h hret
  refine ⟨happ, ?_⟩
  rw [memCalls_queueExit_one_region ring s' h0 h1, hsqes]

section
variable (page hugePage : Nat)

/-- Exit of a ring of one region keeps every huge-page mapping whose size the SQE bytes are not
a multiple of. -/
theorem queueExit_keeps_huge (ring : RingSetup) (s : Sys) (space : List Region) {r : Region}
    (h0 : ring.mem.sqRingSz = 0) (h1 : ring.mem.cqRingSz = 0) (hr : r.huge = true)
    (hlen : (exitSqesBytes ring).toNat % hugePage ≠ 0) (hmem : r ∈ replay page hugePage space (memCalls s.log)) :
    r ∈ replay page hugePage space (memCalls (ioUringQueueExit ring s).log) := by
  rw [memCalls_queueExit_one_region ring s h0 h1, replay_append]
  refine mem_replay_of_kept page hugePage _ _ hmem fun a l hc => ?_
  obtain ⟨-, rfl⟩ : a = ring.mem.sqes.toNat ∧ l = (exitSqesBytes ring).toNat := by simpa using hc
  exact releases_huge page hugePage hr hlen

/-- Whatever the address space, exit of a ring in a caller's buffer releases every ordinary
mapping at the buffer that the SQE bytes cover. -/
theorem queueExit_releases_buf {entries : U32} {p p' : IoUringParams} {pageSize buf bufSize : U64}
    {s s' : Sys} {ret : Int32} {ring : RingSetup} (hbuf : buf ≠ 0)
    (h : ioUringQueueInitMem entries p pageSize buf bufSize s = some ((ret, p', ring), s')) (hret : 0 ≤ ret)
    (space : List Region) {n : Nat} (hn : n ≤ roundUp (exitSqesBytes ring).toNat page) :
    (⟨buf.toNat, n, false⟩ : Region) ∉ replay page hugePage space (memCalls (ioUringQueueExit ring s').log) := by
  rw [(queueExit_initMem_calls hbuf h hret).2]
  exact not_mem_replay_munmap page hugePage space _ (releases_cover page hugePage rfl rfl hn)

end

/-! ## The `mmap` path releases what it maps

When the kernel maps the rings (no IORING_SETUP_NO_MMAP), every error path of setup unmaps what
it mapped; when the SQEs have 64 bytes, exit unmaps the rest, and a whole run leaves the address
space as it found it (`queueInit_exit_regions`). Each function's part is one lemma that its
caller cites: `ioUringMmap_spec`, `initParams_mmap_spec`, and for the retry without
IORING_SETUP_NO_SQARRAY `tryNosqarr_mmap_kept`. -/

/-- The kernel's guarantees hold of the answers still to come. -/
theorem Sys.Sane.of_suffix {s t : Sys} (hs : s.Sane) (hm : t.mmaps <:+ s.mmaps) (hk : t.setups <:+ s.setups) :
    t.Sane where
  addrs_nodup := hs.addrs_nodup.sublist (hm.filterMap _).sublist
  addr_ne_zero a ha := hs.addr_ne_zero a (hm.subset ha)
  sq_ne_zero k hk' := hs.sq_ne_zero k (hk.subset hk')
  cq_ne_zero k hk' := hs.cq_ne_zero k (hk.subset hk')

theorem ioUringUnmapRings_log (m : RingMem) (s : Sys) :
    memCalls (ioUringUnmapRings m s).log = memCalls s.log ++ (unmapRingsCalls m).map fun u => .munmap u.1 u.2 := by
  unfold ioUringUnmapRings unmapRingsCalls
  dsimp only
  -- one case for each of the two unmaps made or not
  split_ifs <;> simp [__sysMunmap, memCalls]

theorem sqRing_mem_unmapRingsCalls (m : RingMem) (h : m.sqRingSz ≠ 0) :
    (m.sqRingPtr.toNat, m.sqRingSz.toNat) ∈ unmapRingsCalls m := by
  unfold unmapRingsCalls
  rw [if_pos h]
  exact List.mem_append_left _ List.mem_cons_self

theorem cqRing_mem_unmapRingsCalls (m : RingMem) (h : m.cqRingPtr ≠ 0 ∧ m.cqRingSz ≠ 0 ∧ m.cqRingPtr ≠ m.sqRingPtr) :
    (m.cqRingPtr.toNat, m.cqRingSz.toNat) ∈ unmapRingsCalls m := by
  unfold unmapRingsCalls
  rw [if_pos h]
  exact List.mem_append_right _ List.mem_cons_self

/-- Exit's calls on memory are `queueExitCalls`, whatever the state. -/
theorem queueExit_log (ring : RingSetup) (s : Sys) :
    memCalls (ioUringQueueExit ring s).log = memCalls s.log ++ (queueExitCalls ring).map fun u => .munmap u.1 u.2 := by
  rw [memCalls_queueExit]
  unfold queueExitCalls
  by_cases h0 : ring.mem.sqRingSz = 0
  · have e : queueExitUnmap ring s = ioUringUnmapRings ring.mem (__sysMunmap ring.mem.sqes (exitSqesBytes ring) s) := by
      rw [queueExitUnmap, if_pos h0]
      rfl
    rw [e, if_pos h0, ioUringUnmapRings_log]
    simp [__sysMunmap, memCalls]
  · unfold queueExitUnmap
    rw [if_neg h0, if_neg h0]
    split
    · rw [ioUringUnmapRings_log]
      simp [__sysMunmap, memCalls]
    · simp

/-- A ring `io_uring_mmap` mapped is exited by unmapping its SQEs and then its rings. -/
theorem queueExitCalls_mapped (ring : RingSetup) (h0 : ring.mem.sqRingSz ≠ 0)
    (happ : hasFlag ring.fds.intFlags INT_FLAG_APP_MEM = false) :
    queueExitCalls ring = (ring.mem.sqes.toNat, (ring.mem.ringEntries.setWidth 64 * 64).toNat) :: unmapRingsCalls ring.mem := by
  rw [queueExitCalls, if_neg h0, happ]
  rfl

/-- Rings with entries have sizes that are not 0. -/
theorem mmapRingSizes_ne_zero {p : IoUringParams} (hsq : p.sqEntries ≠ 0) (hcq : p.cqEntries ≠ 0) :
    (mmapRingSizes p).1 ≠ 0 ∧ (mmapRingSizes p).2 ≠ 0 := by
  -- the sizes are sums of 32-bit values scaled by at most 32, far below 2^64
  have h1 : p.sqOffArray.setWidth 64 + p.sqEntries.setWidth 64 * 4 ≠ 0 := by bv_omega
  have h2 : ∀ size : U64, size = 16 ∨ size = 32 → p.cqOffCqes.setWidth 64 + p.cqEntries.setWidth 64 * size ≠ 0 := by
    rintro size (rfl | rfl) <;> bv_omega
  unfold mmapRingSizes
  dsimp only
  generalize hsize : (if hasFlag p.flags IORING_SETUP_CQE32 = true then 16 + 16 else 16 : U64) = size
  have h2s := h2 size (by rw [← hsize]; split <;> simp)
  split_ifs <;> exact ⟨‹_›, ‹_›⟩

/-- The mapping of the CQ ring: the SQ ring's under IORING_FEAT_SINGLE_MMAP, else a second `mmap`. -/
theorem mmapCq_cases {p : IoUringParams} {ptr : U64} {s1 s2 : Sys} {x : Except Int32 U64}
    (h : (if hasFlag p.features IORING_FEAT_SINGLE_MMAP then some (.ok ptr, s1)
      else __sysMmap (mmapRingSizes p).2 false s1) = some (x, s2)) :
    (hasFlag p.features IORING_FEAT_SINGLE_MMAP = true ∧ x = .ok ptr ∧ s2 = s1) ∨
      (hasFlag p.features IORING_FEAT_SINGLE_MMAP = false ∧ ∃ rest, s1.mmaps = x :: rest ∧
        s2 = { s1 with mmaps := rest, log := s1.log ++ [.mmap (mmapRingSizes p).2 false x] }) := by
  by_cases hs : hasFlag p.features IORING_FEAT_SINGLE_MMAP
  · rw [if_pos hs] at h
    obtain ⟨rfl, rfl⟩ := Prod.mk.inj (Option.some.inj h)
    exact .inl ⟨hs, rfl, rfl⟩
  · rw [if_neg hs] at h
    exact .inr ⟨by simpa using hs, sysMmap_some h⟩

/-- Once both rings are mapped, `io_uring_unmap_rings` would release each mapping made: the CQ
ring's address is fresh, so it is neither 0 nor the SQ ring's. -/
theorem mmapRings_ok {p : IoUringParams} {s s2 : Sys} {a1 c : U64} {rest1 : List (Except Int32 U64)}
    (hs : s.Sane) (hsz : (mmapRingSizes p).1 ≠ 0 ∧ (mmapRingSizes p).2 ≠ 0) (hm1 : s.mmaps = .ok a1 :: rest1)
    (hcq : (if hasFlag p.features IORING_FEAT_SINGLE_MMAP then
        some (.ok a1, { s with mmaps := rest1, log := s.log ++ [.mmap (mmapRingSizes p).1 false (.ok a1)] })
      else __sysMmap (mmapRingSizes p).2 false
        { s with mmaps := rest1, log := s.log ++ [.mmap (mmapRingSizes p).1 false (.ok a1)] }) = some (.ok c, s2)) :
    ∃ rc : List (Nat × Bool × Option Nat),
      memCalls s2.log = memCalls s.log ++ rc.map (fun x => .mmap x.1 x.2.1 x.2.2) ∧ s2.setups = s.setups ∧
        s2.mmaps <:+ s.mmaps ∧ ∀ x ∈ rc, ∀ a ∈ x.2.2, x.2.1 = false ∧ (a, x.1) ∈
          unmapRingsCalls ⟨RingMem.zero.sqes, a1, (mmapRingSizes p).1, c, (mmapRingSizes p).2, RingMem.zero.ringEntries⟩ := by
  have hsq := sqRing_mem_unmapRingsCalls
    ⟨RingMem.zero.sqes, a1, (mmapRingSizes p).1, c, (mmapRingSizes p).2, RingMem.zero.ringEntries⟩ hsz.1
  rcases mmapCq_cases hcq with ⟨-, hx, rfl⟩ | ⟨-, rest2, hm2, rfl⟩
  · -- one mapping for both rings
    obtain rfl : c = a1 := by injection hx
    refine ⟨[((mmapRingSizes p).1.toNat, false, some c.toNat)], by simp [memCalls], rfl,
      by rw [hm1]; exact List.suffix_cons _ _, ?_⟩
    intro x hx a ha
    obtain rfl := List.mem_singleton.1 hx
    obtain rfl := Option.mem_some_iff.1 ha
    exact ⟨rfl, hsq⟩
  · dsimp only at hm2
    have hnd : (a1 :: c :: rest2.filterMap Except.toOption).Nodup := by
      have := hs.addrs_nodup
      rwa [hm1, hm2] at this
    have hne : a1 ≠ c := fun he => (List.nodup_cons.1 hnd).1 (he ▸ List.mem_cons_self)
    have hc0 : c ≠ 0 := hs.addr_ne_zero c (by rw [hm1, hm2]; exact List.mem_cons_of_mem _ List.mem_cons_self)
    have hcq := cqRing_mem_unmapRingsCalls
      ⟨RingMem.zero.sqes, a1, (mmapRingSizes p).1, c, (mmapRingSizes p).2, RingMem.zero.ringEntries⟩
      ⟨hc0, hsz.2, Ne.symm hne⟩
    refine ⟨[((mmapRingSizes p).1.toNat, false, some a1.toNat), ((mmapRingSizes p).2.toNat, false, some c.toNat)],
      by simp [memCalls], rfl, by rw [hm1, hm2]; exact (List.suffix_cons _ _).trans (List.suffix_cons _ _), ?_⟩
    intro x hx a ha
    rcases List.mem_pair.1 hx with rfl | rfl
    · obtain rfl := Option.mem_some_iff.1 ha
      exact ⟨rfl, hsq⟩
    · obtain rfl := Option.mem_some_iff.1 ha
      exact ⟨rfl, hcq⟩

section
variable (page hugePage : Nat)

/-- `io_uring_mmap` from a cleared ring: on failure its calls leave nothing mapped, and on success
with 64-byte SQEs they do once exit has unmapped the SQEs and the rings. -/
theorem ioUringMmap_spec (hpage : 0 < page) {p : IoUringParams} {s s' : Sys} {ret : Int32} {m : RingMem}
    (hs : s.Sane) (hsz : (mmapRingSizes p).1 ≠ 0 ∧ (mmapRingSizes p).2 ≠ 0)
    (h : ioUringMmap p RingMem.zero s = some ((ret, m), s')) :
    ∃ calls, memCalls s'.log = memCalls s.log ++ calls ∧ s'.setups = s.setups ∧ s'.mmaps <:+ s.mmaps ∧
      m.sqRingSz = (mmapRingSizes p).1 ∧
      (hasFlag p.flags IORING_SETUP_SQE128 = false → Balanced page hugePage (calls ++
        ((m.sqes.toNat, (m.ringEntries.setWidth 64 * 64).toNat) :: unmapRingsCalls m).map fun u => .munmap u.1 u.2)) ∧
      (ret ≠ 0 → Balanced page hugePage calls) := by
  unfold ioUringMmap at h
  dsimp only at h
  cases h1 : __sysMmap (mmapRingSizes p).1 false s with
  | none =>
    rw [h1] at h
    cases h
  | some r1 =>
    obtain ⟨x1, s1⟩ := r1
    obtain ⟨rest1, hm1, rfl⟩ := sysMmap_some h1
    rw [h1] at h
    cases x1 with
    | error e =>
      -- the SQ ring is not mapped: nothing to undo
      obtain ⟨⟨rfl, rfl⟩, rfl⟩ := by simpa using h
      have hb : Balanced page hugePage [.mmap (mmapRingSizes p).1.toNat false none] :=
        balanced_unmapped_self page hugePage hpage [((mmapRingSizes p).1.toNat, false, none)] [] (by simp)
      exact ⟨_, by simp [memCalls], rfl, by rw [hm1]; exact List.suffix_cons _ _, rfl,
        fun _ => balanced_append_munmaps page hugePage hb _, fun _ => hb⟩
    | ok a1 =>
      dsimp only at h
      generalize hcq : (if hasFlag p.features IORING_FEAT_SINGLE_MMAP = true then some (Except.ok a1, _)
        else __sysMmap (mmapRingSizes p).2 false _) = cq at h
      cases cq with
      | none => cases h
      | some r2 =>
        obtain ⟨x2, s2⟩ := r2
        cases x2 with
        | error e =>
          -- the CQ ring failed: `io_uring_unmap_rings` releases the SQ ring
          obtain ⟨⟨rfl, rfl⟩, rfl⟩ := by simpa using h
          rcases mmapCq_cases hcq with ⟨-, hx, -⟩ | ⟨-, rest2, hm2, rfl⟩
          · cases hx
          dsimp only at hm2
          have hsq := sqRing_mem_unmapRingsCalls
            ⟨RingMem.zero.sqes, a1, (mmapRingSizes p).1, 0, (mmapRingSizes p).2, RingMem.zero.ringEntries⟩ hsz.1
          have hb := balanced_unmapped_self page hugePage hpage
            [((mmapRingSizes p).1.toNat, false, some a1.toNat), ((mmapRingSizes p).2.toNat, false, none)]
            (unmapRingsCalls ⟨RingMem.zero.sqes, a1, (mmapRingSizes p).1, 0, (mmapRingSizes p).2, RingMem.zero.ringEntries⟩)
            (by simpa using hsq)
          exact ⟨_, by rw [ioUringUnmapRings_log]; simp [memCalls], (ioUringUnmapRings_mmaps _ _).2,
            by rw [(ioUringUnmapRings_mmaps _ _).1, hm1, hm2]; exact (List.suffix_cons _ _).trans (List.suffix_cons _ _),
            rfl, fun _ => balanced_append_munmaps page hugePage hb _, fun _ => hb⟩
        | ok c =>
          obtain ⟨rc, hlog2, hset2, hsuf2, hrc⟩ := mmapRings_ok hs hsz hm1 hcq
          dsimp only at h
          generalize hsize : (if hasFlag p.flags IORING_SETUP_SQE128 = true then 64 + 64 else 64 : U64) = size at h
          cases h3 : __sysMmap (size * p.sqEntries.setWidth 64) false s2 with
          | none =>
            rw [h3] at h
            cases h
          | some r3 =>
            obtain ⟨x3, s3⟩ := r3
            obtain ⟨rest3, hm3, rfl⟩ := sysMmap_some h3
            rw [h3] at h
            have hsuf3 : rest3 <:+ s.mmaps := (hm3 ▸ List.suffix_cons _ _ : rest3 <:+ s2.mmaps).trans hsuf2
            cases x3 with
            | error e =>
              -- the SQEs failed: the rings are unmapped
              obtain ⟨⟨rfl, rfl⟩, rfl⟩ := by simpa using h
              have hb := balanced_unmapped_self page hugePage hpage (rc ++ [((size * p.sqEntries.setWidth 64).toNat, false, none)])
                (unmapRingsCalls ⟨RingMem.zero.sqes, a1, (mmapRingSizes p).1, c, (mmapRingSizes p).2,
                  RingMem.zero.ringEntries⟩) fun x hx a ha => by
                rcases List.mem_append.1 hx with hx | hx
                · exact hrc x hx a ha
                · obtain rfl := List.mem_singleton.1 hx
                  cases ha
              exact ⟨_, by rw [ioUringUnmapRings_log]; simp [memCalls, hlog2], (ioUringUnmapRings_mmaps _ _).2.trans hset2,
                by rw [(ioUringUnmapRings_mmaps _ _).1]; exact hsuf3,
                rfl, fun _ => balanced_append_munmaps page hugePage hb _, fun _ => hb⟩
            | ok a3 =>
              -- all mapped: with 64-byte SQEs exit unmaps them with the length they were mapped with,
              -- then the rings
              obtain ⟨⟨rfl, rfl⟩, rfl⟩ := by simpa using h
              refine ⟨(rc ++ [((size * p.sqEntries.setWidth 64).toNat, false, some a3.toNat)]).map
                  (fun x => .mmap x.1 x.2.1 x.2.2), by simp [memCalls, hlog2], hset2, hsuf3, rfl, fun h128 => ?_,
                fun h0 => absurd rfl h0⟩
              obtain rfl : size = 64 := by rw [← hsize, h128]; rfl
              have hb := balanced_unmapped_self page hugePage hpage (rc ++ [((64 * p.sqEntries.setWidth 64).toNat, false, some a3.toNat)])
                ((a3.toNat, (p.sqEntries.setWidth 64 * 64).toNat) :: unmapRingsCalls ⟨RingMem.zero.sqes, a1,
                  (mmapRingSizes p).1, c, (mmapRingSizes p).2, RingMem.zero.ringEntries⟩) fun x hx a ha => by
                rcases List.mem_append.1 hx with hx | hx
                · exact ⟨(hrc x hx a ha).1, List.mem_cons_of_mem _ (hrc x hx a ha).2⟩
                · obtain rfl := List.mem_singleton.1 hx
                  obtain rfl := Option.mem_some_iff.1 ha
                  exact ⟨rfl, by rw [BitVec.mul_comm]; exact List.mem_cons_self⟩
              -- exit reads the ring pointers and sizes that were mapped
              have hu : unmapRingsCalls (ioUringSetupRingPointers p ⟨a3, a1, (mmapRingSizes p).1, c, (mmapRingSizes p).2,
                  RingMem.zero.ringEntries⟩) = unmapRingsCalls ⟨RingMem.zero.sqes, a1, (mmapRingSizes p).1, c,
                  (mmapRingSizes p).2, RingMem.zero.ringEntries⟩ := rfl
              rw [hu]
              simpa [ioUringSetupRingPointers] using hb

/-- `__io_uring_queue_init_params` on the `mmap` path: a failure leaves nothing mapped, a success
with 64-byte SQEs nothing once its ring is exited, and the answers still to come are a suffix of
those before. -/
theorem initParams_mmap_spec (hpage : 0 < page) {entries : U32} {p p' : IoUringParams} {pageSize buf bufSize : U64}
    {s s' : Sys} {ret : Int32} {ring : RingSetup} (hs : s.Sane) (hnm : hasFlag p.flags IORING_SETUP_NO_MMAP = false)
    (h : __ioUringQueueInitParams entries p pageSize buf bufSize s = some ((ret, p', ring), s')) :
    ∃ calls, memCalls s'.log = memCalls s.log ++ calls ∧ s'.mmaps <:+ s.mmaps ∧ s'.setups <:+ s.setups ∧
      (hasFlag p.flags IORING_SETUP_SQE128 = false →
        Balanced page hugePage (calls ++ (queueExitCalls ring).map fun u => .munmap u.1 u.2)) ∧
      (ret ≠ 0 → Balanced page hugePage calls) := by
  unfold __ioUringQueueInitParams at h
  simp only [hnm, Bool.not_false, and_true, Bool.false_eq_true, if_false, Bool.false_and] at h
  by_cases hreg : hasFlag p.flags IORING_SETUP_REGISTERED_FD_ONLY = true
  · rw [if_pos hreg] at h
    obtain ⟨⟨rfl, -, rfl⟩, rfl⟩ := by simpa using h
    -- rejected before any call
    exact ⟨[], by simp, List.suffix_refl _, List.suffix_refl _,
      fun _ => balanced_append_munmaps page hugePage (balanced_nil page hugePage) _, fun _ => balanced_nil page hugePage⟩
  rw [if_neg hreg, if_neg (by decide : ¬(0 : Int32) < 0)] at h
  cases hsu : __sysIoUringSetup p s with
  | none =>
    rw [hsu] at h
    cases h
  | some r1 =>
    obtain ⟨⟨fd, p1⟩, s1⟩ := r1
    obtain ⟨k, rest, hk, rfl, hflags, -, hentries, rfl⟩ := sysIoUringSetup_some hsu
    rw [hsu] at h
    dsimp only at h
    have hsuf : rest <:+ s.setups := by
      rw [hk]
      exact List.suffix_cons _ _
    by_cases hfd : k.ret < 0
    · -- the kernel refused: nothing was mapped
      rw [if_pos hfd] at h
      obtain ⟨⟨rfl, -, rfl⟩, rfl⟩ := by simpa using h
      exact ⟨[], by simp [memCalls], List.suffix_refl _, hsuf,
        fun _ => balanced_append_munmaps page hugePage (balanced_nil page hugePage) _, fun _ => balanced_nil page hugePage⟩
    rw [if_neg hfd] at h
    have hk0 : 0 ≤ k.ret := Int32.not_lt.1 hfd
    have hs1 : Sys.Sane { s with setups := rest, log := s.log ++ [.setup k.ret] } := hs.of_suffix (List.suffix_refl _) hsuf
    have hsz := mmapRingSizes_ne_zero (p := p1) (by rw [(hentries hk0).1]; exact hs.sq_ne_zero k (hk ▸ List.mem_cons_self) hk0)
      (by rw [(hentries hk0).2]; exact hs.cq_ne_zero k (hk ▸ List.mem_cons_self) hk0)
    simp only [initAfterSetup, Bool.not_false, if_true] at h
    cases hm : ioUringMmap p1 RingMem.zero { s with setups := rest, log := s.log ++ [.setup k.ret] } with
    | none =>
      rw [hm] at h
      cases h
    | some r2 =>
      obtain ⟨⟨ret2, mem⟩, s2⟩ := r2
      obtain ⟨calls, hlog, hset, hmm, hsq, hok, hfail⟩ :=
        ioUringMmap_spec page hugePage hpage hs1 hsz hm
      rw [hm] at h
      dsimp only at h
      have hlog' : memCalls s2.log = memCalls s.log ++ calls := by simpa [memCalls] using hlog
      split at h
      · -- the mapping failed and its calls are undone; the fd is closed
        rename_i hret
        obtain ⟨⟨rfl, -, rfl⟩, rfl⟩ := by simpa using h
        exact ⟨calls, by simp [__sysClose, memCalls, hlog'], hmm, hset ▸ hsuf,
          fun _ => balanced_append_munmaps page hugePage (hfail hret) _, fun _ => hfail hret⟩
      · rename_i hret
        obtain ⟨⟨rfl, -, rfl⟩, rfl⟩ := by simpa using h
        refine ⟨calls, hlog', hmm, hset ▸ hsuf, fun h128 => ?_, fun h0 => absurd (not_not.1 hret) h0⟩
        rw [queueExitCalls_mapped ⟨mem, p1.flags, queueInitFds false k.ret p1.flags p1.features⟩
          (by rw [← hsq] at hsz; exact hsz.1) (queueInitFds_appMem false k.ret p1.flags p1.features)]
        exact hok (by rw [hflags]; exact h128)

/-- The attempt `io_uring_queue_init_try_nosqarr` keeps, made with IORING_SETUP_NO_SQARRAY or
without it, is one of `__io_uring_queue_init_params` from a state where the first attempt, when
the kernel refused IORING_SETUP_NO_SQARRAY with `-EINVAL`, has undone its calls. -/
theorem tryNosqarr_mmap_kept (hpage : 0 < page) {entries : U32} {p : IoUringParams} {pageSize buf bufSize : U64}
    {s : Sys} {r : (Int32 × IoUringParams × RingSetup) × Sys} (hs : s.Sane)
    (hnm : hasFlag p.flags IORING_SETUP_NO_MMAP = false)
    (h : ioUringQueueInitTryNosqarr entries p pageSize buf bufSize s = some r) :
    ∃ undone s0 q, memCalls s0.log = memCalls s.log ++ undone ∧ Balanced page hugePage undone ∧ s0.Sane ∧
      s0.mmaps <:+ s.mmaps ∧ hasFlag q.flags IORING_SETUP_NO_MMAP = false ∧
      hasFlag q.flags IORING_SETUP_SQE128 = hasFlag p.flags IORING_SETUP_SQE128 ∧
      __ioUringQueueInitParams entries q pageSize buf bufSize s0 = some r := by
  unfold ioUringQueueInitTryNosqarr at h
  cases h1 : __ioUringQueueInitParams entries { p with flags := p.flags ||| IORING_SETUP_NO_SQARRAY } pageSize buf
      bufSize s with
  | none =>
    rw [h1] at h
    cases h
  | some r1 =>
    obtain ⟨⟨ret1, p1, ring1⟩, s1⟩ := r1
    rw [h1] at h
    dsimp only at h
    split at h
    · -- the first attempt is kept: IORING_SETUP_NO_SQARRAY is another bit than the two read here
      cases h
      exact ⟨[], s, _, by simp, balanced_nil page hugePage, hs, List.suffix_refl _,
        by rw [hasFlag_or_of_disjoint _ _ _ (by decide)]; exact hnm,
        hasFlag_or_of_disjoint _ _ _ (by decide), h1⟩
    · -- the kernel refused IORING_SETUP_NO_SQARRAY with `-EINVAL`, after undoing its calls
      rename_i hretry
      obtain ⟨calls1, hlog1, hmm1, hset1, -, hfail1⟩ := initParams_mmap_spec page hugePage hpage hs
        (p := { p with flags := p.flags ||| IORING_SETUP_NO_SQARRAY })
        (by rw [hasFlag_or_of_disjoint _ _ _ (by decide)]; exact hnm) h1
      exact ⟨calls1, s1, { p1 with flags := p.flags }, hlog1, hfail1 fun h0 => hretry (.inl (by rw [h0]; decide)),
        hs.of_suffix hmm1 hset1, hmm1, hnm, rfl, h⟩

/-- `io_uring_queue_init_try_nosqarr` on the `mmap` path keeps `initParams_mmap_spec`. -/
theorem tryNosqarr_mmap_spec (hpage : 0 < page) {entries : U32} {p p' : IoUringParams} {pageSize buf bufSize : U64}
    {s s' : Sys} {ret : Int32} {ring : RingSetup} (hs : s.Sane) (hnm : hasFlag p.flags IORING_SETUP_NO_MMAP = false)
    (h : ioUringQueueInitTryNosqarr entries p pageSize buf bufSize s = some ((ret, p', ring), s')) :
    ∃ calls, memCalls s'.log = memCalls s.log ++ calls ∧
      (hasFlag p.flags IORING_SETUP_SQE128 = false →
        Balanced page hugePage (calls ++ (queueExitCalls ring).map fun u => .munmap u.1 u.2)) ∧
      (ret ≠ 0 → Balanced page hugePage calls) := by
  obtain ⟨undone, s0, q, hlog0, hb0, hs0, -, hnmq, h128q, hq⟩ := tryNosqarr_mmap_kept page hugePage hpage hs hnm h
  obtain ⟨calls, hlog, -, -, hexit, hfail⟩ := initParams_mmap_spec page hugePage hpage hs0 hnmq hq
  refine ⟨undone ++ calls, by rw [hlog, hlog0, List.append_assoc], fun h128 => ?_,
    fun h0 => balanced_append page hugePage hb0 (hfail h0)⟩
  rw [List.append_assoc]
  exact balanced_append page hugePage hb0 (hexit (h128q.trans h128))

/-- `io_uring_queue_init_params` is `io_uring_queue_init_try_nosqarr` without a buffer, with a
value that is not negative returned as 0. -/
theorem queueInitParams_some {entries : U32} {p p' : IoUringParams} {pageSize : U64} {s s' : Sys} {ret : Int32}
    {ring : RingSetup} (h : ioUringQueueInitParams entries p pageSize s = some ((ret, p', ring), s')) :
    ∃ ret1, ioUringQueueInitTryNosqarr entries p pageSize 0 0 s = some ((ret1, p', ring), s') ∧
      ret = if ret1 ≥ 0 then 0 else ret1 := by
  unfold ioUringQueueInitParams at h
  obtain ⟨⟨⟨ret1, p1, ring1⟩, s1⟩, ht, he⟩ := Option.map_eq_some_iff.1 h
  obtain ⟨⟨rfl, rfl, rfl⟩, rfl⟩ := by simpa using he
  exact ⟨ret1, ht, rfl⟩

/-- On the `mmap` path without IORING_SETUP_SQE128, a setup by `io_uring_queue_init_params`
followed, when it succeeded, by `io_uring_queue_exit` leaves no mapping behind. -/
theorem queueInit_exit_balanced (hpage : 0 < page) {entries : U32} {p p' : IoUringParams} {pageSize : U64}
    {s s' : Sys} {ret : Int32} {ring : RingSetup} (hs : s.Sane) (hnm : hasFlag p.flags IORING_SETUP_NO_MMAP = false)
    (h128 : hasFlag p.flags IORING_SETUP_SQE128 = false)
    (h : ioUringQueueInitParams entries p pageSize s = some ((ret, p', ring), s')) :
    ∃ calls, memCalls (if ret ≥ 0 then ioUringQueueExit ring s' else s').log = memCalls s.log ++ calls ∧
      Balanced page hugePage calls := by
  obtain ⟨ret1, h1, rfl⟩ := queueInitParams_some h
  obtain ⟨calls, hlog, hexit, hfail⟩ := tryNosqarr_mmap_spec page hugePage hpage hs hnm h1
  by_cases hnn : ret1 ≥ 0
  · rw [if_pos hnn, if_pos (show (0 : Int32) ≥ 0 by decide)]
    exact ⟨_, by rw [queueExit_log, hlog, List.append_assoc], hexit h128⟩
  · rw [if_neg hnn, if_neg hnn]
    exact ⟨calls, hlog, hfail fun h0 => hnn (by rw [h0]; decide)⟩

/-- **No mapping leaks on the `mmap` path.** Whatever the address space, the regions left by a
setup by `io_uring_queue_init_params` without IORING_SETUP_SQE128, and by its exit when it
succeeded, are among those there before. -/
theorem queueInit_exit_regions (hpage : 0 < page) {entries : U32} {p : IoUringParams} {pageSize : U64} {s : Sys}
    (hs : s.Sane) (hnm : hasFlag p.flags IORING_SETUP_NO_MMAP = false)
    (h128 : hasFlag p.flags IORING_SETUP_SQE128 = false) (space : List Region) {ret : Int32} {rs : List Region}
    (h : regionsAfterExit page space (ioUringQueueInitParams entries p pageSize s) = some (ret, rs)) :
    ∀ r ∈ rs, r ∈ replay page hugePageSize.toNat space (memCalls s.log) := by
  unfold regionsAfterExit at h
  cases hq : ioUringQueueInitParams entries p pageSize s with
  | none =>
    rw [hq] at h
    cases h
  | some r1 =>
    obtain ⟨⟨ret1, p1, ring1⟩, s1⟩ := r1
    rw [hq] at h
    obtain ⟨-, rfl⟩ := by simpa using h
    obtain ⟨calls, hlog, hb⟩ := queueInit_exit_balanced page hugePageSize.toNat hpage hs hnm h128 hq
    intro r hr
    rw [hlog, replay_append] at hr
    exact hb _ r hr
end

/-- A kernel with IORING_FEAT_SINGLE_MMAP that maps the rings at `0x100000` and the SQEs at `0x200000`. -/
def envMmap : Sys := ⟨[.ok 0x100000, .ok 0x200000], [⟨3, 64, 128, IORING_FEAT_SINGLE_MMAP, 0x40, 0x80⟩], []⟩

theorem envMmap_sane : envMmap.Sane where
  addrs_nodup := by decide
  addr_ne_zero a ha := by
    simp only [envMmap, List.mem_cons, Except.ok.injEq, List.mem_nil_iff, or_false] at ha
    rcases ha with rfl | rfl <;> decide
  sq_ne_zero k hk _ := by
    simp only [envMmap, List.mem_singleton] at hk
    subst hk
    decide
  cq_ne_zero k hk _ := by
    simp only [envMmap, List.mem_singleton] at hk
    subst hk
    decide

/-- A ring of 64 entries set up and exited beside a mapping at `0x500000`: that mapping is all
that is left. -/
theorem queueInit_exit_regions_envMmap :
    regionsAfterExit 4096 [⟨0x500000, 4096, false⟩] (ioUringQueueInitParams 64 (paramsOfFlags 0) 4096 envMmap) =
        some (0, [⟨0x500000, 4096, false⟩]) ∧
      ∀ r ∈ [(⟨0x500000, 4096, false⟩ : Region)],
        r ∈ replay 4096 hugePageSize.toNat [⟨0x500000, 4096, false⟩] (memCalls envMmap.log) := by
  have hrun : regionsAfterExit 4096 [⟨0x500000, 4096, false⟩]
      (ioUringQueueInitParams 64 (paramsOfFlags 0) 4096 envMmap) = some (0, [⟨0x500000, 4096, false⟩]) := by
    decide
  exact ⟨hrun, queueInit_exit_regions 4096 (by decide) envMmap_sane (by decide) (by decide) _ hrun⟩

/-! ## Runs that show it -/

/-- A kernel that accepts a ring of 64 entries, with `cq_off.cqes = 64`. -/
def envSqe128 : Sys := ⟨[], [⟨3, 64, 128, 0, 0, 64⟩], []⟩

/-- A kernel that accepts a ring of 128 entries, and one huge page to allocate. -/
def envHuge : Sys := ⟨[.ok 0x200000], [⟨3, 128, 256, 0, 0, 64⟩], []⟩

/-- One huge page to allocate, then `io_uring_setup` fails with `-ENOMEM`. -/
def envSetupFails : Sys := ⟨[.ok 0x200000], [⟨-ENOMEM, 0, 0, 0, 0, 0⟩], []⟩

theorem queue_exit_unmaps_caller_buffer :
    (∀ (entries : U32) (p p' : IoUringParams) (pageSize buf bufSize : U64) (s s' : Sys) (ret : Int32)
        (ring : RingSetup), buf ≠ 0 →
      ioUringQueueInitMem entries p pageSize buf bufSize s = some ((ret, p', ring), s') → 0 ≤ ret →
        hasFlag ring.fds.intFlags INT_FLAG_APP_MEM = true ∧
        memCalls (ioUringQueueExit ring s').log = memCalls s'.log ++ [.munmap buf.toNat (exitSqesBytes ring).toNat] ∧
        ∀ page hugePage space n, n ≤ roundUp (exitSqesBytes ring).toNat page →
          (⟨buf.toNat, n, false⟩ : Region) ∉ replay page hugePage space (memCalls (ioUringQueueExit ring s').log)) ∧
    (∀ page hugePage (ring : RingSetup) (s : Sys) space (r : Region), ring.mem.sqRingSz = 0 → ring.mem.cqRingSz = 0 →
      r.huge = true → (exitSqesBytes ring).toNat % hugePage ≠ 0 → r ∈ replay page hugePage space (memCalls s.log) →
        r ∈ replay page hugePage space (memCalls (ioUringQueueExit ring s).log)) ∧
    regionsAfterExit 4096 [⟨0x10000, 8192, false⟩]
        (ioUringQueueInitMem 64 (paramsOfFlags IORING_SETUP_SQE128) 4096 0x10000 8192 envSqe128) = some (8192, []) ∧
    regionsAfterExit 4096 [] (ioUringQueueInitParams 128 (paramsOfFlags IORING_SETUP_NO_MMAP) 4096 envHuge) =
        some (0, [⟨0x200000, 2097152, true⟩]) ∧
    regionsAfterExit 4096 [] (ioUringQueueInitParams 64 (paramsOfFlags IORING_SETUP_SQE128) 4096 envMmap) =
        some (0, [⟨0x200000, 8192, false⟩]) ∧
    regionsAfterExit 4096 [] (ioUringQueueInitParams 128 (paramsOfFlags IORING_SETUP_NO_MMAP) 4096 envSetupFails) =
        some (-ENOMEM, [⟨0x200000, 2097152, true⟩]) := by
  refine ⟨fun entries p p' pageSize buf bufSize s s' ret ring hbuf h hret => ?_,
    fun page hugePage ring s space r h0 h1 hr hlen hmem => queueExit_keeps_huge page hugePage ring s space h0 h1 hr hlen hmem,
    by decide, by decide, by decide, by decide⟩
  obtain ⟨happ, hcalls⟩ := queueExit_initMem_calls hbuf h hret
  exact ⟨happ, hcalls, fun page hugePage space _ hn => queueExit_releases_buf page hugePage hbuf h hret space hn⟩

end Liburing
