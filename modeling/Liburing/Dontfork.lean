import Liburing.Teardown
import Liburing.HugeLayout
/-!
# Keeping the ring from a child after fork(2) (setup.c:164-198)

| here | there |
| --- | --- |
| `madviseEach` | the `__sys_madvise(…, MADV_DONTFORK)` calls of `io_uring_ring_dontfork`, each returning on failure |
| `dontforkRanges` | the ranges it advises: the SQEs, `sq->ring_sz` at `sq->ring_ptr`, and the CQ ring when it is mapped on its own |
| `ioUringRingDontfork` | `io_uring_ring_dontfork` (setup.c:168), given the kernel's answers to `madvise` |
| `MadviseOutcome` | what it returns: the ranges up to the first failing call, and 0 exactly when none failed |
| `Sys.MmapErrorsNeg` | `mmap` fails with a negative error, as `IS_ERR` and `PTR_ERR` read it |

`io_uring_ring_dontfork` does not remember what setup mapped; it reads the layout back from the
ring. When the kernel maps the rings, that layout is exactly the mappings that
`io_uring_queue_init_params` kept, each with the length it was mapped with, IORING_SETUP_SQE128
included (`dontfork_advises_mappings`). When `io_uring_alloc_huge` put the rings behind the SQEs
in one region, `sq->ring_sz` is 0, so the second call advises no byte and the third is skipped.
The first covers the SQEs with the length it computes, while `io_uring_alloc_huge` left room for
64-byte SQEs only: with those, the rings in the same shared mapping are not kept from a child;
under IORING_SETUP_SQE128 the SQE length reaches into their pages once it passes the pages
reserved for the SQEs (`dontfork_misses_rings`).
-/
set_option linter.style.nameCheck false

namespace Liburing

open AddrSpace

/-- `__sys_madvise(addr, len, MADV_DONTFORK)` on each range in turn, returning at the first
failure: the return value and the ranges advised, the failed one included, or `none` when the
kernel's answers run out. -/
def madviseEach : List (U64 × U64) → List Int32 → Option (Int32 × List (U64 × U64))
  | [], _ => some (0, [])
  | _ :: _, [] => none
  | u :: us, ret :: answers =>
    if ret < 0 then some (ret, [u]) else (madviseEach us answers).map fun (ret, made) => (ret, u :: made)

/-- The ranges of `io_uring_ring_dontfork`, in the order it advises them. -/
def dontforkRanges (ring : RingSetup) : List (U64 × U64) :=
  let len : U64 := if hasFlag ring.flags IORING_SETUP_SQE128 then 64 + 64 else 64
  let len := len * ring.mem.ringEntries.setWidth 64
  [(ring.mem.sqes, len), (ring.mem.sqRingPtr, ring.mem.sqRingSz)] ++
    if ring.mem.cqRingPtr ≠ ring.mem.sqRingPtr then [(ring.mem.cqRingPtr, ring.mem.cqRingSz)] else []

/-- `io_uring_ring_dontfork`: the return value and the ranges advised. -/
def ioUringRingDontfork (ring : RingSetup) (answers : List Int32) : Option (Int32 × List (U64 × U64)) :=
  if ring.mem.sqRingPtr = 0 ∨ ring.mem.sqes = 0 ∨ ring.mem.cqRingPtr = 0 then some (-EINVAL, [])
  else madviseEach (dontforkRanges ring) answers

/-- `mmap` fails with a negative error number. -/
def Sys.MmapErrorsNeg (s : Sys) : Prop := ∀ e, Except.error e ∈ s.mmaps → e < 0

theorem Sys.MmapErrorsNeg.of_suffix {s t : Sys} (hs : s.MmapErrorsNeg) (hm : t.mmaps <:+ s.mmaps) :
    t.MmapErrorsNeg :=
  fun e he => hs e (hm.subset he)

/-! ## The `madvise` calls -/

/-- What `io_uring_ring_dontfork` returns after its `madvise` calls on `us`, given an answer for
each: it advises the ranges in order up to the first that fails, and returns 0 exactly when none
of the answers it read failed, having then advised them all. -/
structure MadviseOutcome (us : List (U64 × U64)) (answers : List Int32) (r : Int32) (made : List (U64 × U64)) :
    Prop where
  made_initial : made <+: us
  ok_iff : r = 0 ↔ ∀ a ∈ answers.take us.length, 0 ≤ a
  ok_all : r = 0 → made = us

/-- One `madvise` per range, in order, stopping at the first failure. The induction is on the
ranges, each with its answer. -/
theorem madviseEach_spec : ∀ (us : List (U64 × U64)) (answers : List Int32), us.length ≤ answers.length →
    ∃ r made, madviseEach us answers = some (r, made) ∧ MadviseOutcome us answers r made
  | [], _, _ => ⟨0, [], rfl, List.prefix_refl _, by simp, fun _ => rfl⟩
  | _ :: _, [], hlen => absurd hlen (by simp)
  | u :: us, a :: answers, hlen => by
    by_cases ha : a < 0
    · -- the first call fails: its error is returned, and it was read
      have hne : a ≠ 0 := fun h0 => absurd (h0 ▸ ha) (by decide)
      refine ⟨a, [u], by rw [madviseEach, if_pos ha], List.cons_prefix_cons.2 ⟨rfl, List.nil_prefix⟩, ?_,
        fun h0 => absurd h0 hne⟩
      exact ⟨fun h0 => absurd h0 hne, fun hall => absurd (hall a (by simp)) (Int32.not_le.2 ha)⟩
    · obtain ⟨r, made, hm, hout⟩ := madviseEach_spec us answers (by simpa using hlen)
      refine ⟨r, u :: made, by rw [madviseEach, if_neg ha, hm]; rfl, List.cons_prefix_cons.2 ⟨rfl, hout.made_initial⟩,
        ?_, fun h0 => by rw [hout.ok_all h0]⟩
      rw [hout.ok_iff, List.length_cons, List.take_succ_cons, List.forall_mem_cons]
      exact (and_iff_right (Int32.not_lt.1 ha)).symm

/-- Past the NULL checks, `io_uring_ring_dontfork` is its `madvise` calls on `dontforkRanges`. -/
theorem ioUringRingDontfork_spec {ring : RingSetup} {answers : List Int32} (h0 : ring.mem.sqRingPtr ≠ 0)
    (h1 : ring.mem.sqes ≠ 0) (h2 : ring.mem.cqRingPtr ≠ 0) (hlen : (dontforkRanges ring).length ≤ answers.length) :
    ∃ r advised, ioUringRingDontfork ring answers = some (r, advised) ∧
      MadviseOutcome (dontforkRanges ring) answers r advised := by
  rw [ioUringRingDontfork, if_neg (not_or.2 ⟨h0, not_or.2 ⟨h1, h2⟩⟩)]
  exact madviseEach_spec _ _ hlen

/-! ## When the kernel maps the rings -/

/-- `__sys_io_uring_setup` leaves the two user addresses as they were. -/
theorem sysIoUringSetup_userAddr {p p' : IoUringParams} {s s' : Sys} {fd : Int32}
    (h : __sysIoUringSetup p s = some ((fd, p'), s')) :
    p'.sqOffUserAddr = p.sqOffUserAddr ∧ p'.cqOffUserAddr = p.cqOffUserAddr := by
  unfold __sysIoUringSetup at h
  split at h
  · cases h
  · obtain ⟨⟨-, rfl⟩, -⟩ := by simpa using h
    split <;> exact ⟨rfl, rfl⟩

/-- The first region of `io_uring_alloc_huge` is the caller's buffer, or what the environment
answered to `mmap`. -/
theorem allocFirst_cases {pageSize sqesMem memUsed buf bufSize : U64} {s s1 : Sys} {x : Except Int32 (U64 × U64)}
    (h : allocFirst pageSize sqesMem memUsed buf bufSize s = some (x, s1)) :
    s1.mmaps <:+ s.mmaps ∧
      ((buf ≠ 0 ∧ (x = .error (-ENOMEM) ∨ x = .ok (buf, bufSize))) ∨
        (buf = 0 ∧ ∃ r ∈ s.mmaps, x = r.map fun ptr => (ptr, if sqesMem ≤ pageSize then pageSize else hugePageSize))) := by
  unfold allocFirst at h
  by_cases hbuf : buf ≠ 0
  · rw [if_pos hbuf] at h
    obtain ⟨rfl, rfl⟩ := Prod.mk.inj (Option.some.inj h)
    refine ⟨List.suffix_refl _, .inl ⟨hbuf, ?_⟩⟩
    split
    · exact .inl rfl
    · exact .inr rfl
  · rw [if_neg hbuf] at h
    dsimp only at h
    cases hm : __sysMmap (if sqesMem ≤ pageSize then pageSize else hugePageSize) (decide (sqesMem > pageSize)) s with
    | none =>
      rw [hm] at h
      cases h
    | some r =>
      obtain ⟨r, s2⟩ := r
      obtain ⟨rest, hm1, rfl⟩ := sysMmap_some hm
      rw [hm, Option.map_some] at h
      obtain ⟨rfl, rfl⟩ := Prod.mk.inj (Option.some.inj h)
      exact ⟨by rw [hm1]; exact List.suffix_cons _ _, .inr ⟨not_not.1 hbuf, r, by rw [hm1]; exact List.mem_cons_self, rfl⟩⟩

/-- The rings of `io_uring_alloc_huge`: behind the SQEs, or in a second mapping with a size of
its own, or an error the environment answered. -/
theorem allocRings_cases {pageSize sqesMem ringMem memUsed bufSize : U64} {m : RingMem} {s s2 : Sys}
    {x : Except Int32 RingMem} (h : allocRings pageSize sqesMem ringMem memUsed bufSize m s = some (x, s2)) :
    (∃ e, x = .error e ∧ Except.error e ∈ s.mmaps) ∨
      x = .ok { m with sqRingPtr := m.sqes + sqesMem, cqRingSz := 0, sqRingSz := 0 } ∨
      ∃ m2, x = .ok m2 ∧ (m2.sqRingSz = pageSize ∨ m2.sqRingSz = hugePageSize) := by
  unfold allocRings at h
  by_cases hfit : memUsed ≤ bufSize
  · rw [if_pos hfit] at h
    obtain ⟨rfl, -⟩ := Prod.mk.inj (Option.some.inj h)
    exact .inr (.inl rfl)
  · rw [if_neg hfit] at h
    dsimp only at h
    cases hm : __sysMmap (if ringMem ≤ pageSize then pageSize else hugePageSize) (decide (ringMem > pageSize)) s with
    | none =>
      rw [hm] at h
      cases h
    | some r =>
      obtain ⟨r, s3⟩ := r
      obtain ⟨rest, hm1, rfl⟩ := sysMmap_some hm
      rw [hm] at h
      cases r with
      | error e =>
        obtain ⟨rfl, -⟩ := Prod.mk.inj (Option.some.inj h)
        exact .inl ⟨e, rfl, by rw [hm1]; exact List.mem_cons_self⟩
      | ok ptr =>
        obtain ⟨rfl, -⟩ := Prod.mk.inj (Option.some.inj h)
        refine .inr (.inr ⟨_, rfl, ?_⟩)
        split
        · exact .inl rfl
        · exact .inr rfl

/-- A successful `io_uring_alloc_huge` that left one region put the rings right behind the SQEs,
rounded up to pages, and told the kernel so; the region is the caller's buffer or a mapping the
environment answered. -/
theorem allocHuge_one_region {entries : U32} {p p' : IoUringParams} {pageSize buf bufSize : U64} {m : RingMem}
    {s s' : Sys} {ret : Int32} (hpage : pageSize ≠ 0) (herr : s.MmapErrorsNeg)
    (h : ioUringAllocHuge entries p pageSize RingMem.zero buf bufSize s = some ((ret, p', m), s')) (hret : 0 ≤ ret)
    (hone : m.sqRingSz = 0) :
    ∃ sq cq, getSqCqEntries entries p = .ok (sq, cq) ∧ m.sqRingPtr = m.sqes + sqesMemOf pageSize sq ∧
      m.cqRingPtr = m.sqRingPtr ∧ p'.flags = p.flags ∧ p'.cqOffUserAddr = m.sqRingPtr ∧
      ((buf ≠ 0 ∧ m.sqes = buf) ∨ (buf = 0 ∧ Except.ok m.sqes ∈ s.mmaps)) := by
  unfold ioUringAllocHuge at h
  cases hg : getSqCqEntries entries p with
  | error e =>
    rw [hg] at h
    obtain ⟨⟨rfl, -, -⟩, -⟩ := by simpa using h
    exact absurd hret (by rw [getSqCqEntries_error hg]; decide)
  | ok r =>
    obtain ⟨sq, cq⟩ := r
    rw [hg] at h
    dsimp only at h
    by_cases hbig : buf = 0 ∧ (sqesMemOf pageSize sq > hugePageSize ∨ ringMemOf p.flags sq cq > hugePageSize)
    · rw [if_pos hbig] at h
      obtain ⟨⟨rfl, -, -⟩, -⟩ := by simpa using h
      exact absurd hret (by decide)
    rw [if_neg hbig] at h
    cases hf : allocFirst pageSize (sqesMemOf pageSize sq)
        (memUsedOf pageSize (sqesMemOf pageSize sq) (ringMemOf p.flags sq cq)) buf bufSize s with
    | none =>
      rw [hf] at h
      cases h
    | some r1 =>
      obtain ⟨x1, s1⟩ := r1
      obtain ⟨hsuf1, hfirst⟩ := allocFirst_cases hf
      rw [hf] at h
      cases x1 with
      | error e =>
        -- the error is `-ENOMEM` or the environment's, negative either way
        obtain ⟨⟨rfl, -, -⟩, -⟩ := by simpa using h
        rcases hfirst with ⟨-, he | he⟩ | ⟨-, r, hr, he⟩
        · cases he
          exact absurd hret (by decide)
        · cases he
        · cases r with
          | error e' =>
            cases he
            exact absurd hret (Int32.not_le.2 (herr _ hr))
          | ok a => cases he
      | ok ps =>
        obtain ⟨ptr, bsz⟩ := ps
        dsimp only at h
        cases hr : allocRings pageSize (sqesMemOf pageSize sq) (ringMemOf p.flags sq cq)
            (memUsedOf pageSize (sqesMemOf pageSize sq) (ringMemOf p.flags sq cq)) bsz { RingMem.zero with sqes := ptr }
            s1 with
        | none =>
          rw [hr] at h
          cases h
        | some r2 =>
          obtain ⟨x2, s2⟩ := r2
          rw [hr] at h
          rcases allocRings_cases hr with ⟨e, rfl, he⟩ | rfl | ⟨m2, rfl, hsz⟩
          · obtain ⟨⟨rfl, -, -⟩, -⟩ := by simpa using h
            exact absurd hret (Int32.not_le.2 (herr e (hsuf1.subset he)))
          · obtain ⟨⟨-, rfl, rfl⟩, -⟩ := by simpa using h
            refine ⟨sq, cq, rfl, rfl, rfl, rfl, rfl, ?_⟩
            -- the SQEs start the first region
            rcases hfirst with ⟨hbuf, he | he⟩ | ⟨hbuf, r, hmr, he⟩
            · cases he
            · cases he
              exact .inl ⟨hbuf, rfl⟩
            · cases r with
              | error e => cases he
              | ok a =>
                cases he
                exact .inr ⟨hbuf, hmr⟩
          · -- a second mapping has a size, and the ring would have `sq->ring_sz` set
            obtain ⟨⟨-, -, rfl⟩, -⟩ := by simpa using h
            rcases hsz with hsz | hsz <;> rw [hsz] at hone
            · exact absurd hone hpage
            · exact absurd hone (by decide)

/-- A successful `__io_uring_queue_init_params` under IORING_SETUP_NO_MMAP is a successful
`io_uring_alloc_huge`, whose memory the ring keeps, followed by `io_uring_setup`. -/
theorem initParams_noMmap_ok {entries : U32} {p p' : IoUringParams} {pageSize buf bufSize : U64} {s s' : Sys}
    {ret : Int32} {ring : RingSetup} (hnm : hasFlag p.flags IORING_SETUP_NO_MMAP = true)
    (h : __ioUringQueueInitParams entries p pageSize buf bufSize s = some ((ret, p', ring), s')) (hret : 0 ≤ ret) :
    ∃ p0 mem s0, ioUringAllocHuge entries p pageSize RingMem.zero buf bufSize s = some ((ret, p0, mem), s0) ∧
      ring.mem = ioUringSetupRingPointers p' mem ∧ ring.flags = p'.flags ∧ p'.flags = p0.flags ∧
      p'.cqOffUserAddr = p0.cqOffUserAddr := by
  unfold __ioUringQueueInitParams at h
  simp only [hnm, Bool.not_true, Bool.false_eq_true, and_false, if_false, if_true] at h
  cases ha : ioUringAllocHuge entries p pageSize RingMem.zero buf bufSize s with
  | none =>
    rw [ha] at h
    cases h
  | some r =>
    obtain ⟨⟨ret0, p0, mem⟩, s0⟩ := r
    rw [ha] at h
    simp only at h
    by_cases hneg : ret0 < 0
    · rw [if_pos hneg] at h
      obtain ⟨⟨rfl, -, -⟩, -⟩ := by simpa using h
      exact absurd hneg (Int32.not_lt.2 hret)
    rw [if_neg hneg] at h
    cases hs : __sysIoUringSetup p0 s0 with
    | none =>
      rw [hs] at h
      cases h
    | some r =>
      obtain ⟨⟨fd, p1⟩, s1⟩ := r
      obtain ⟨-, -, -, -, hflags, -, -, -⟩ := sysIoUringSetup_some hs
      have huser := sysIoUringSetup_userAddr hs
      rw [hs] at h
      simp only at h
      by_cases hfd : fd < 0
      · rw [if_pos hfd] at h
        obtain ⟨⟨rfl, -, -⟩, -⟩ := by simpa using h
        exact absurd hfd (Int32.not_lt.2 hret)
      rw [if_neg hfd] at h
      simp only [initAfterSetup, Bool.not_true, Bool.false_eq_true, if_false] at h
      obtain ⟨⟨rfl, rfl, rfl⟩, -⟩ := by simpa using h
      exact ⟨p0, mem, s0, rfl, rfl, rfl, hflags, huser.2⟩

/-- Under IORING_SETUP_NO_MMAP, a successful setup whose rings share the SQEs' region put them
right after the pages of 64-byte SQEs, at addresses that are not NULL and that do not wrap, and
told the kernel so. -/
theorem noMmap_one_region_layout {entries : U32} {p p' : IoUringParams} {pageSize buf bufSize : U64} {k : Nat}
    {s s' : Sys} {ret : Int32} {ring : RingSetup} (hk : pageSize.toNat = 2 ^ k) (hk24 : k ≤ 24) (hs : s.Sane)
    (herr : s.MmapErrorsNeg) (hnm : hasFlag p.flags IORING_SETUP_NO_MMAP = true)
    (h : __ioUringQueueInitParams entries p pageSize buf bufSize s = some ((ret, p', ring), s')) (hret : 0 ≤ ret)
    (hone : ring.mem.sqRingSz = 0) (hent : ∃ cq, getSqCqEntries entries p = .ok (ring.mem.ringEntries, cq))
    (hend : ring.mem.sqes.toNat + 2 ^ 25 ≤ 2 ^ 64) :
    p'.cqOffUserAddr = ring.mem.sqRingPtr ∧ ring.flags = p.flags ∧ ring.mem.cqRingPtr = ring.mem.sqRingPtr ∧
      ring.mem.sqes ≠ 0 ∧ ring.mem.sqRingPtr ≠ 0 ∧
      ring.mem.sqRingPtr.toNat = ring.mem.sqes.toNat + roundUp (64 * ring.mem.ringEntries.toNat) pageSize.toNat := by
  obtain ⟨p0, mem, s0, ha, hmem, hflags, hflags0, huser⟩ := initParams_noMmap_ok hnm h hret
  have hpos := pageSize_pos hk
  have hpage : pageSize ≠ 0 := fun h0 => by rw [h0] at hpos; exact absurd hpos (by decide)
  rw [hmem] at hone
  obtain ⟨sq, cq, hg, hptr, hcq, hpf, hcqaddr, hsqes⟩ := allocHuge_one_region hpage herr ha hret hone
  -- the ring reads back the allocation, with the kernel's entries
  have hsqes' : ring.mem.sqes = mem.sqes := by rw [hmem]; rfl
  have hptr' : ring.mem.sqRingPtr = mem.sqes + sqesMemOf pageSize sq := by rw [hmem]; exact hptr
  obtain ⟨cq', hent⟩ := hent
  have hE : ring.mem.ringEntries = sq := by
    rw [hg] at hent
    exact (Prod.mk.inj (Except.ok.inj hent)).1.symm
  -- sizes as naturals: the SQEs fill `roundUp (64 * sq)`, and the rings' address does not wrap
  obtain ⟨a, -, ha15, -, hsq, -⟩ := getSqCqEntries_pow hg
  have hsq15 : sq.toNat ≤ 2 ^ 15 := hsq ▸ Nat.pow_le_pow_right Nat.two_pos ha15
  have hp24 : 2 ^ k ≤ 2 ^ 24 := Nat.pow_le_pow_right Nat.two_pos hk24
  have hS := sqesMemOf_toNat hk hk24 sq
  have hSlt : (sqesMemOf pageSize sq).toNat < 2 ^ 25 := by
    have := roundUp_lt (64 * sq.toNat) hpos
    omega
  have hadd : ring.mem.sqRingPtr.toNat = ring.mem.sqes.toNat + (sqesMemOf pageSize sq).toNat := by
    rw [hptr', hsqes']
    rw [hsqes'] at hend
    exact BitVec.toNat_add_of_lt (by omega)
  -- the pointers are not NULL
  have hnz : ring.mem.sqes ≠ 0 := by
    rw [hsqes']
    rcases hsqes with ⟨hbuf, hb⟩ | ⟨-, hm⟩
    · rw [hb]
      exact hbuf
    · exact hs.addr_ne_zero _ hm
  have hnz' : ring.mem.sqRingPtr ≠ 0 := fun h0 => by
    have : ring.mem.sqes.toNat ≠ 0 := fun h1 => hnz (BitVec.eq_of_toNat_eq h1)
    rw [h0] at hadd
    simp at hadd
    omega
  exact ⟨by rw [huser, hcqaddr, hmem]; rfl, by rw [hflags, hflags0, hpf], by rw [hmem]; exact hcq, hnz, hnz',
    by rw [hadd, hS, hE]⟩

/-- Under IORING_SETUP_NO_MMAP, when the rings share the SQEs' region, `io_uring_ring_dontfork`
after a successful setup advises the SQEs, with the length it computes from the ring, and an empty
range at the rings. `io_uring_alloc_huge` put the rings right after the pages of 64-byte SQEs, so
no page past those of the advised SQE length is kept from a child; without IORING_SETUP_SQE128
that is no page from where the kernel keeps its rings on. -/
theorem dontfork_misses_rings {entries : U32} {p p' : IoUringParams} {pageSize buf bufSize : U64} {k : Nat}
    {s s' : Sys} {ret : Int32} {ring : RingSetup} (hk : pageSize.toNat = 2 ^ k) (hk24 : k ≤ 24) (hs : s.Sane)
    (herr : s.MmapErrorsNeg) (hnm : hasFlag p.flags IORING_SETUP_NO_MMAP = true)
    (h : __ioUringQueueInitParams entries p pageSize buf bufSize s = some ((ret, p', ring), s')) (hret : 0 ≤ ret)
    (hone : ring.mem.sqRingSz = 0) (hent : ∃ cq, getSqCqEntries entries p = .ok (ring.mem.ringEntries, cq))
    (hend : ring.mem.sqes.toNat + 2 ^ 25 ≤ 2 ^ 64) :
    p'.cqOffUserAddr = ring.mem.sqRingPtr ∧
      dontforkRanges ring = [(ring.mem.sqes, exitSqesBytes ring), (ring.mem.sqRingPtr, 0)] ∧
      (∀ answers, 2 ≤ answers.length → ∃ r advised, ioUringRingDontfork ring answers = some (r, advised) ∧
        MadviseOutcome (dontforkRanges ring) answers r advised) ∧
      ring.mem.sqRingPtr.toNat = ring.mem.sqes.toNat + roundUp (64 * ring.mem.ringEntries.toNat) pageSize.toNat ∧
      (∀ j, ring.mem.sqes.toNat + roundUp (exitSqesBytes ring).toNat pageSize.toNat ≤ j →
        ∀ u ∈ dontforkRanges ring, touches pageSize.toNat u.1.toNat u.2.toNat j = false) ∧
      (hasFlag p.flags IORING_SETUP_SQE128 = false → ∀ j, ring.mem.sqRingPtr.toNat ≤ j →
        ∀ u ∈ dontforkRanges ring, touches pageSize.toNat u.1.toNat u.2.toNat j = false) := by
  obtain ⟨huser, hflags, hcq, hnz, hnz', hrings⟩ := noMmap_one_region_layout hk hk24 hs herr hnm h hret hone hent hend
  -- `sq->ring_sz` is 0 and the CQ ring is the SQ ring's: two ranges, the second empty
  have hranges : dontforkRanges ring = [(ring.mem.sqes, exitSqesBytes ring), (ring.mem.sqRingPtr, 0)] := by
    simp only [dontforkRanges, exitSqesBytes, hcq, hone, ne_eq, not_true_eq_false, if_false, List.append_nil]
  -- no range reaches past the pages of the SQE length
  have hpast : ∀ j, ring.mem.sqes.toNat + roundUp (exitSqesBytes ring).toNat pageSize.toNat ≤ j →
      ∀ u ∈ dontforkRanges ring, touches pageSize.toNat u.1.toNat u.2.toNat j = false := by
    intro j hj u hu
    rw [hranges] at hu
    rcases List.mem_pair.1 hu with rfl | rfl
    · exact touches_of_le _ hj
    · exact touches_zero _ _ _
  refine ⟨huser, hranges,
    fun answers hlen => ioUringRingDontfork_spec hnz' hnz (hcq ▸ hnz') (by rw [hranges]; exact hlen), hrings, hpast,
    fun h128 j hj => hpast j ?_⟩
  -- with 64-byte SQEs their pages end where the rings start
  rw [exitSqesBytes_toNat, hflags, h128, if_neg Bool.false_ne_true, ← hrings]
  exact hj

/-- A kernel that accepts a ring of 8 entries in the caller's memory. -/
def envInitMem : Sys := ⟨[], [⟨3, 8, 16, 0, 0, 64⟩], []⟩

theorem envInitMem_sane : envInitMem.Sane where
  addrs_nodup := by decide
  addr_ne_zero a ha := by simp [envInitMem] at ha
  sq_ne_zero k hk _ := by
    simp only [envInitMem, List.mem_singleton] at hk
    subst hk
    decide
  cq_ne_zero k hk _ := by
    simp only [envInitMem, List.mem_singleton] at hk
    subst hk
    decide

/-- A ring of 8 entries in a 16 KiB buffer at `0x10000`: one page of SQEs, the rings on the next
page, and only the first page advised. -/
theorem dontfork_misses_rings_initMem :
    ∃ p' ring s', __ioUringQueueInitParams 8 (paramsOfFlags IORING_SETUP_NO_MMAP) 4096 0x10000 16384 envInitMem =
        some ((8192, p', ring), s') ∧
      ring.mem.sqRingPtr = 0x11000 ∧ dontforkRanges ring = [(0x10000, 512), (0x11000, 0)] ∧
      ∀ j, ring.mem.sqRingPtr.toNat ≤ j →
        ∀ u ∈ dontforkRanges ring, touches (4096 : U64).toNat u.1.toNat u.2.toNat j = false := by
  obtain ⟨⟨⟨ret, p', ring⟩, s'⟩, hr, hv⟩ := Option.map_eq_some_iff.1
    (by decide +kernel : (__ioUringQueueInitParams 8 (paramsOfFlags IORING_SETUP_NO_MMAP) 4096 0x10000 16384
      envInitMem).map (fun r => (r.1.1, r.1.2.2.mem, dontforkRanges r.1.2.2)) =
        some (8192, ⟨0x10000, 0x11000, 0, 0x11000, 0, 8⟩, [(0x10000, 512), (0x11000, 0)]))
  obtain ⟨rfl, hmem, hranges⟩ : ret = 8192 ∧ ring.mem = ⟨0x10000, 0x11000, 0, 0x11000, 0, 8⟩ ∧
      dontforkRanges ring = [(0x10000, 512), (0x11000, 0)] := by simpa using hv
  have hent : ∃ cq, getSqCqEntries 8 (paramsOfFlags IORING_SETUP_NO_MMAP) = .ok (ring.mem.ringEntries, cq) :=
    ⟨16, by rw [hmem]; decide⟩
  obtain ⟨-, -, -, -, -, hrings⟩ := dontfork_misses_rings (k := 12) rfl (by decide) envInitMem_sane
    (fun e he => by simp [envInitMem] at he) (by decide) hr (by decide) (by rw [hmem]) hent
    (by rw [hmem]; decide)
  exact ⟨p', ring, s', hr, by rw [hmem], hranges, hrings (by decide)⟩

/-- Under IORING_SETUP_SQE128 the advised SQE length runs into the rings: 64 entries in an 8 KiB
buffer at `0x10000` put the rings at `0x11000`, on a page the first range covers. -/
example : (__ioUringQueueInitParams 64 (paramsOfFlags (IORING_SETUP_NO_MMAP ||| IORING_SETUP_SQE128)) 4096 0x10000
    8192 envSqe128).map (fun r => (r.1.2.2.mem.sqRingPtr,
      (dontforkRanges r.1.2.2).map fun u => touches 4096 u.1.toNat u.2.toNat r.1.2.2.mem.sqRingPtr.toNat)) =
    some (0x11000, [true, false]) := by
  decide +kernel

end Liburing
