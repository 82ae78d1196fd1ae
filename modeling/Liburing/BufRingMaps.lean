import Liburing.Setup
/-!
# The mappings of buffer rings (setup.c:626-685)

| here | there |
| --- | --- |
| `brSetup` | `br_setup` (setup.c:626, every architecture but hppa), given the kernel's answer to `io_uring_register_buf_ring` |
| `ioUringFreeBufRing` | `io_uring_free_buf_ring` (setup.c:674), given the kernel's answer to `io_uring_unregister_buf_ring` |
| `BufGroup`, `BufGroup.region` | a ring an application holds, and the mapping of its `nentries * sizeof(struct io_uring_buf)` bytes |
| `BufRingOp`, `bufRingStep` | an application that sets rings up with `io_uring_setup_buf_ring` and frees them with `io_uring_free_buf_ring`, passing back what setup returned |

`br_setup` maps the ring before it registers it and unmaps it when the registration fails;
`io_uring_free_buf_ring` unregisters first and unmaps only when that succeeded, so a ring the
kernel still holds stays mapped. Over every run of such calls, from an application that holds
no ring, the mappings the calls leave are exactly the rings it still holds, in the order they
were set up (`buf_rings_mapped_exactly`): a failed setup leaves nothing behind and no free
releases another ring. `io_uring_buf_ring_init`, which setup runs on the ring it returns, is
the content side, in `BufRing.lean`.
-/
set_option linter.style.nameCheck false

namespace Liburing

open AddrSpace

/-- `br_setup`: the ring, or the error `*ret` is set to. -/
def brSetup (nentries : U32) (lret : Int32) : SysM (Except Int32 U64) := fun s =>
  let ringSize : U64 := nentries.setWidth 64 * 16
  match __sysMmap ringSize false s with
  | none => none
  | some (.error e, s) => some (.error e, s)
  | some (.ok br, s) =>
    -- the registration failed: `__sys_munmap(br, ring_size)`
    if lret ≠ 0 then some (.error lret, __sysMunmap br ringSize s) else some (.ok br, s)

/-- `io_uring_free_buf_ring`: its return value. -/
def ioUringFreeBufRing (br : U64) (nentries : U32) (ret : Int32) (s : Sys) : Int32 × Sys :=
  if ret ≠ 0 then (ret, s) else (0, __sysMunmap br (nentries.setWidth 64 * 16) s)

/-- A ring the application holds: its group, its address and its entries. -/
structure BufGroup where
  bgid : Int32
  br : U64
  nentries : U32
deriving DecidableEq, Repr

/-- The mapping `br_setup` made for the ring. -/
def BufGroup.region (g : BufGroup) : Region := ⟨g.br.toNat, (g.nentries.setWidth 64 * 16).toNat, false⟩

/-- A call of the application, with the kernel's answer to the registration or the
unregistration it makes. -/
inductive BufRingOp where
  | setup (bgid : Int32) (nentries : U32) (lret : Int32)
  | free (bgid : Int32) (ret : Int32)
deriving DecidableEq, Repr

/-- The rings the application holds, and the system calls made so far. -/
structure BufRings where
  groups : List BufGroup
  sys : Sys

/-- One call: a setup that returned a ring adds it, a free that returned 0 forgets it. A free of
a group the application does not hold makes no call. -/
def bufRingStep : Option BufRings → BufRingOp → Option BufRings
  | none, _ => none
  | some st, .setup bgid nentries lret =>
    (brSetup nentries lret st.sys).map fun (r, s) =>
      match r with
      | .ok br => ⟨st.groups ++ [⟨bgid, br, nentries⟩], s⟩
      | .error _ => ⟨st.groups, s⟩
  | some st, .free bgid ret =>
    match st.groups.find? (fun g => g.bgid == bgid) with
    | none => some st
    | some g =>
      let (r, s) := ioUringFreeBufRing g.br g.nentries ret st.sys
      some ⟨if r = 0 then st.groups.erase g else st.groups, s⟩

/-! ## One call -/

/-- `br_setup` takes the environment's next answer to `mmap`: a failed mapping, a mapping it
unmaps again after a failed registration, or the ring. -/
theorem brSetup_cases {nentries : U32} {lret : Int32} {s s' : Sys} {r : Except Int32 U64}
    (h : brSetup nentries lret s = some (r, s')) :
    ∃ x rest, s.mmaps = x :: rest ∧ s'.mmaps = rest ∧
      ((∃ e, x = .error e ∧ r = .error e ∧
          memCalls s'.log = memCalls s.log ++ [.mmap (nentries.setWidth 64 * 16).toNat false none]) ∨
        (∃ br, x = .ok br ∧ r = .error lret ∧ memCalls s'.log = memCalls s.log ++
          [.mmap (nentries.setWidth 64 * 16).toNat false (some br.toNat),
            .munmap br.toNat (nentries.setWidth 64 * 16).toNat]) ∨
        (∃ br, x = .ok br ∧ r = .ok br ∧
          memCalls s'.log = memCalls s.log ++ [.mmap (nentries.setWidth 64 * 16).toNat false (some br.toNat)])) := by
  unfold brSetup at h
  dsimp only at h
  cases hm : __sysMmap (nentries.setWidth 64 * 16) false s with
  | none =>
    rw [hm] at h
    cases h
  | some r1 =>
    obtain ⟨x, s1⟩ := r1
    obtain ⟨rest, hm1, rfl⟩ := sysMmap_some hm
    rw [hm] at h
    refine ⟨x, rest, hm1, ?_⟩
    cases x with
    | error e =>
      obtain ⟨rfl, rfl⟩ := Prod.mk.inj (Option.some.inj h)
      exact ⟨rfl, .inl ⟨e, rfl, rfl, by simp [memCalls]⟩⟩
    | ok br =>
      dsimp only at h
      split at h
      · obtain ⟨rfl, rfl⟩ := Prod.mk.inj (Option.some.inj h)
        exact ⟨rfl, .inr (.inl ⟨br, rfl, rfl, by simp [__sysMunmap, memCalls]⟩)⟩
      · obtain ⟨rfl, rfl⟩ := Prod.mk.inj (Option.some.inj h)
        exact ⟨rfl, .inr (.inr ⟨br, rfl, rfl, by simp [memCalls]⟩)⟩

/-- Distinct rings have mappings at distinct addresses. -/
theorem region_addrs_nodup {gs : List BufGroup} (hnd : (gs.map BufGroup.br).Nodup) :
    ((gs.map BufGroup.region).map Region.addr).Nodup := by
  rw [List.map_map]
  have hcomp : (Region.addr ∘ BufGroup.region) = BitVec.toNat ∘ BufGroup.br := rfl
  rw [hcomp, ← List.map_map]
  exact hnd.map fun a b h => BitVec.eq_of_toNat_eq h

/-- Forgetting a ring forgets its mapping, when no other ring shares its address. -/
theorem map_region_erase {g : BufGroup} : ∀ {gs : List BufGroup}, (gs.map BufGroup.br).Nodup → g ∈ gs →
    (gs.map BufGroup.region).erase g.region = (gs.erase g).map BufGroup.region
  | [], _, hg => absurd hg List.not_mem_nil
  | x :: xs, hnd, hg => by
    rw [List.map_cons, List.nodup_cons] at hnd
    by_cases hx : x = g
    · subst hx
      rw [List.map_cons, List.erase_cons_head, List.erase_cons_head]
    · have hg' : g ∈ xs := (List.mem_cons.1 hg).resolve_left (Ne.symm hx)
      have hr : x.region ≠ g.region := fun he => by
        have hbr : x.br = g.br := BitVec.eq_of_toNat_eq (congrArg Region.addr he)
        exact hnd.1 (hbr ▸ List.mem_map_of_mem hg')
      rw [List.map_cons, List.erase_cons_tail (by simpa using hr), List.erase_cons_tail (by simpa using hx),
        List.map_cons, map_region_erase hnd.2 hg']

/-! ## Every run -/

section
variable (page hugePage : Nat)

/-- What a run keeps: the mappings made since `log0` are the rings held, and the addresses are
apart, the rings' from each other and from every answer still to come. -/
structure BufRingsInv (log0 : List SysCall) (st : BufRings) : Prop where
  mapped : ∃ calls, memCalls st.sys.log = memCalls log0 ++ calls ∧
    replay page hugePage [] calls = st.groups.map BufGroup.region
  answers_nodup : (st.sys.mmaps.filterMap Except.toOption).Nodup
  fresh : ∀ g ∈ st.groups, Except.ok g.br ∉ st.sys.mmaps
  rings_nodup : (st.groups.map BufGroup.br).Nodup

variable {page hugePage} {log0 : List SysCall} {st st' : BufRings}

/-- An address the environment has still to answer is no held ring's. -/
theorem BufRingsInv.br_not_held (hs : BufRingsInv page hugePage log0 st) {br : U64}
    (hm : Except.ok br ∈ st.sys.mmaps) : br ∉ st.groups.map BufGroup.br := fun hmem => by
  obtain ⟨g, hg, rfl⟩ := List.mem_map.1 hmem
  exact hs.fresh g hg hm

/-- So a ring mapped there keeps the rings apart. -/
theorem BufRingsInv.rings_nodup_append (hs : BufRingsInv page hugePage log0 st) {br : U64}
    (hm : Except.ok br ∈ st.sys.mmaps) (bgid : Int32) (nentries : U32) :
    ((st.groups ++ [(⟨bgid, br, nentries⟩ : BufGroup)]).map BufGroup.br).Nodup := by
  rw [List.map_append, List.nodup_append]
  refine ⟨hs.rings_nodup, List.nodup_singleton _, fun a ha b hb hab => hs.br_not_held hm ?_⟩
  have hb' : b = br := by simpa using hb
  rw [← hb', ← hab]
  exact ha

/-- A setup keeps the invariant: a failed mapping adds nothing, a failed registration unmaps the
fresh mapping and nothing else, and a ring is added with the mapping it got. -/
theorem setup_inv (hpage : 0 < page) (hs : BufRingsInv page hugePage log0 st) {bgid : Int32} {nentries : U32}
    {lret : Int32} (h : bufRingStep (some st) (.setup bgid nentries lret) = some st') :
    BufRingsInv page hugePage log0 st' := by
  obtain ⟨calls, hlog, hrep⟩ := hs.mapped
  obtain ⟨⟨r, s⟩, hb, rfl⟩ := Option.map_eq_some_iff.1 h
  obtain ⟨x, rest, hm, hrest, hcases⟩ := brSetup_cases hb
  subst hrest
  have hfresh : ∀ g ∈ st.groups, Except.ok g.br ∉ s.mmaps := fun g hg hr => hs.fresh g hg (by
    rw [hm]
    exact List.mem_cons_of_mem _ hr)
  rcases hcases with ⟨e, rfl, rfl, hlog'⟩ | ⟨br, rfl, rfl, hlog'⟩ | ⟨br, rfl, rfl, hlog'⟩
  · -- the mapping failed: nothing is mapped
    dsimp only
    have hnd := hs.answers_nodup
    rw [hm] at hnd
    refine ⟨⟨calls ++ _, by rw [hlog', hlog, List.append_assoc], ?_⟩, hnd, hfresh, hs.rings_nodup⟩
    rw [replay_append, hrep]
    rfl
  · -- the registration failed: the one mapping made is released, and no ring's
    dsimp only
    have hnd := hs.answers_nodup
    rw [hm, List.filterMap_cons, Except.toOption] at hnd
    have hfirst : Except.ok br ∈ st.sys.mmaps := by rw [hm]; exact List.mem_cons_self
    have hnew : (⟨br.toNat, (nentries.setWidth 64 * 16).toNat, false⟩ : Region) ∉ st.groups.map BufGroup.region :=
      fun hmem => by
        obtain ⟨g, hg, hgr⟩ := List.mem_map.1 hmem
        have hgb : g.br = br := BitVec.eq_of_toNat_eq (congrArg Region.addr hgr)
        exact hs.br_not_held hfirst (hgb ▸ List.mem_map_of_mem hg)
    -- the space with the fresh mapping is that of the rings with one more
    have haddrs : (((st.groups.map BufGroup.region) ++
        [(⟨br.toNat, (nentries.setWidth 64 * 16).toNat, false⟩ : Region)]).map Region.addr).Nodup := by
      have hgroups := region_addrs_nodup (hs.rings_nodup_append hfirst bgid nentries)
      rwa [List.map_append] at hgroups
    refine ⟨⟨calls ++ _, by rw [hlog', hlog, List.append_assoc], ?_⟩, (List.nodup_cons.1 hnd).2, hfresh,
      hs.rings_nodup⟩
    rw [replay_append, hrep]
    simp only [replay]
    rw [munmap_eq_erase page hugePage (List.mem_append_right _ List.mem_cons_self) haddrs
      (releases_cover page hugePage rfl rfl (le_roundUp _ hpage)), List.erase_append_right _ hnew]
    simp
  · -- the ring is held, with the mapping it got
    dsimp only
    have hnd := hs.answers_nodup
    rw [hm, List.filterMap_cons, Except.toOption] at hnd
    have hbr_rest : Except.ok br ∉ s.mmaps := fun hr =>
      (List.nodup_cons.1 hnd).1 (List.mem_filterMap.2 ⟨_, hr, rfl⟩)
    refine ⟨⟨calls ++ _, by rw [hlog', hlog, List.append_assoc], ?_⟩, (List.nodup_cons.1 hnd).2, ?_, ?_⟩
    · rw [replay_append, hrep]
      simp [replay, BufGroup.region]
    · intro g hg
      rcases List.mem_append.1 hg with hg | hg
      · exact hfresh g hg
      · rw [List.mem_singleton.1 hg]
        exact hbr_rest
    · exact hs.rings_nodup_append (by rw [hm]; exact List.mem_cons_self) bgid nentries

/-- A free keeps the invariant: a successful unregistration unmaps that ring's mapping alone, a
failed one leaves everything mapped. -/
theorem free_inv (hpage : 0 < page) (hs : BufRingsInv page hugePage log0 st) {bgid ret : Int32}
    (h : bufRingStep (some st) (.free bgid ret) = some st') : BufRingsInv page hugePage log0 st' := by
  simp only [bufRingStep] at h
  cases hf : st.groups.find? (fun g => g.bgid == bgid) with
  | none =>
    rw [hf] at h
    cases h
    exact hs
  | some g =>
    rw [hf] at h
    have hg : g ∈ st.groups := List.mem_of_find?_eq_some hf
    simp only [ioUringFreeBufRing] at h
    by_cases hret : ret = 0
    · subst hret
      simp only [ne_eq, not_true_eq_false, if_false, if_true] at h
      cases h
      obtain ⟨calls, hlog, hrep⟩ := hs.mapped
      refine ⟨⟨calls ++ [.munmap g.br.toNat (g.nentries.setWidth 64 * 16).toNat], ?_, ?_⟩, hs.answers_nodup,
        fun g' hg' => hs.fresh g' ((List.erase_subset) hg'), ?_⟩
      · simp [__sysMunmap, memCalls, hlog]
      · rw [replay_append, hrep]
        simp only [replay]
        rw [show g.br.toNat = g.region.addr from rfl,
          munmap_eq_erase page hugePage (List.mem_map_of_mem hg) (region_addrs_nodup hs.rings_nodup)
            (releases_cover page hugePage rfl rfl (le_roundUp (g.nentries.setWidth 64 * 16).toNat hpage)),
          map_region_erase hs.rings_nodup hg]
      · exact hs.rings_nodup.sublist ((List.erase_sublist).map _)
    · -- the kernel still holds the ring: nothing changes
      simp only [ne_eq, hret, not_false_eq_true, if_true, if_false] at h
      cases h
      exact hs

/-- Every call keeps the invariant. -/
theorem bufRingStep_inv (hpage : 0 < page) (hs : BufRingsInv page hugePage log0 st) {op : BufRingOp}
    (h : bufRingStep (some st) op = some st') : BufRingsInv page hugePage log0 st' := by
  cases op with
  | setup bgid nentries lret => exact setup_inv hpage hs h
  | free bgid ret => exact free_inv hpage hs h

end

/-- Over every run of buffer-ring setups and frees from an application that holds no ring, with
`mmap` never answering an address twice, the mappings the calls leave are exactly the rings the
application still holds, in the order they were set up. -/
theorem buf_rings_mapped_exactly (page hugePage : Nat) (hpage : 0 < page) (st : BufRings) (ops : List BufRingOp)
    (hg : st.groups = []) (hs : (st.sys.mmaps.filterMap Except.toOption).Nodup) (st' : BufRings)
    (h : SlotRing.run bufRingStep (some st) ops = some st') :
    ∃ calls, memCalls st'.sys.log = memCalls st.sys.log ++ calls ∧
      replay page hugePage [] calls = st'.groups.map BufGroup.region := by
  have hinit : BufRingsInv page hugePage st.sys.log st :=
    ⟨⟨[], by simp, by simp [replay, hg]⟩, hs, by simp [hg], by simp [hg]⟩
  -- the invariant of a run in `Option`: it holds of the state, when there is one
  have hrun := @SlotRing.run_invariant _ _ bufRingStep (fun _ _ => True)
    (fun o => ∀ st', o = some st' → BufRingsInv page hugePage st.sys.log st')
    (fun o op ho _ st' h => by
      cases o with
      | none => cases h
      | some st0 => exact bufRingStep_inv hpage (ho st0 rfl) h)
    (some st) ops (fun st' h => Option.some.inj h ▸ hinit) (SlotRing.legal_of_forall _ (fun _ _ => trivial) _ _)
  exact (hrun st' h).mapped

/-- The environment of a run: two rings' worth of mappings. -/
def envTwoRings : Sys := ⟨[.ok 0x10000, .ok 0x20000, .ok 0x30000], [], []⟩

/-- Two setups, the second refused by the kernel; a free the kernel refuses, then one it
accepts; then a third setup. -/
def bufRingRunTwo : List BufRingOp :=
  [.setup 1 8 0, .setup 2 8 (-EEXIST), .free 1 (-ENOENT), .free 1 0, .setup 3 8 0]

theorem buf_rings_mapped_run_two :
    ∃ st', SlotRing.run bufRingStep (some ⟨[], envTwoRings⟩) bufRingRunTwo = some st' ∧
      ∃ calls, memCalls st'.sys.log = memCalls envTwoRings.log ++ calls ∧
        replay 4096 hugePageSize.toNat [] calls = st'.groups.map BufGroup.region :=
  ⟨_, rfl, buf_rings_mapped_exactly 4096 hugePageSize.toNat (by decide) ⟨[], envTwoRings⟩ bufRingRunTwo rfl
    (by decide) _ rfl⟩

end Liburing
