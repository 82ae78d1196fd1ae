import Mathlib.Data.List.TakeWhile
import Liburing.CqFifo
/-!
# Internal timeout CQEs on kernels without IORING_FEAT_EXT_ARG (liburing.h:1331-1371; queue.c:162-198, :259-297)

On such kernels `io_uring_wait_cqes` queues timeout SQEs tagged LIBURING_UDATA_TIMEOUT, and
`__io_uring_peek_cqe` consumes their CQEs: it steps over tagged CQEs that completed without
error and stops at the first that failed, returning its error (`peekCqe_skips_timeouts`).
Draining the ring with single peeks thus delivers exactly the untagged CQEs, in order
(`drainByPeek_eq_filter`). `io_uring_peek_batch_cqe` and `io_uring_for_each_cqe` have no such
filter: they hand out every CQE, tagged or not (`peekBatch_returns_timeout`).
-/
namespace Liburing

open SlotRing

variable {c : CqConf}

/-- The CQEs the peek loop steps over with `continue`: internal timeouts that did not fail. -/
def CqConf.stepsOver (c : CqConf) (e : IoUringCqe) : Bool := c.skips e && !decide (e.res < 0)

/-- How the peek loop ends when it stops at position `m` of the queue `q`. -/
def peekEnd (c : CqConf) (q : List IoUringCqe) (m : Nat) : PeekEnd :=
  match q[m]? with
  | none => .empty
  | some e => if c.skips e then .error e.res else .found

/-- The element just past a `takeWhile` fails the test. -/
theorem getElem?_length_takeWhile {β : Type} {p : β → Bool} :
    ∀ {l : List β} {e : β}, l[(l.takeWhile p).length]? = some e → p e = false
  | [], _, h => by simp at h
  | a :: as, e, h => by
    by_cases ha : p a
    · rw [List.takeWhile_cons, if_pos ha, List.length_cons, List.getElem?_cons_succ] at h
      exact getElem?_length_takeWhile h
    · rw [List.takeWhile_cons, if_neg ha, List.length_nil, List.getElem?_cons_zero, Option.some.injEq] at h
      rw [← h]
      simpa using ha

/-- The peek loop steps over the longest prefix of CQEs it may step over, and ends on what
follows it. -/
theorem peekScan_eq_takeWhile (q : List IoUringCqe) :
    peekScan c q = ((q.takeWhile c.stepsOver).length, peekEnd c q (q.takeWhile c.stepsOver).length) := by
  induction q with
  | nil => rfl
  | cons e q ih =>
    by_cases hs : c.skips e
    · by_cases hn : e.res < 0
      · have hst : c.stepsOver e = false := by simp [CqConf.stepsOver, hn]
        simp [peekScan, hs, hn, hst, peekEnd]
      · have hst : c.stepsOver e = true := by simp [CqConf.stepsOver, hs, hn]
        rw [peekScan, if_pos hs, if_neg hn, ih, List.takeWhile_cons, if_pos hst, List.length_cons]
        rfl
    · have hst : c.stepsOver e = false := by simp [CqConf.stepsOver, hs]
      simp [peekScan, hs, hst, peekEnd]

/-- The CQE at queue position `m`, read through its counter. -/
theorem cqQueue_getElem? (s : CqState) {m : Nat} (hm : m < (ioUringCqReady s).toNat) :
    (cqQueue c s)[m]? = some (s.cqes (ioUringCqeIndex c (s.khead + BitVec.ofNat 32 m))) := by
  rw [cqQueue, getElem?_window _ _ _ _ hm, c.ioUringCqeIndex_eq, toNat_add_ofNat, c.posSlot_mod]

theorem peekResult_ktail (s : CqState) (r : Nat × PeekEnd) : (peekResult c s r).ring.ktail = s.ktail := by
  obtain ⟨m, o⟩ := r
  cases o <;> rfl

theorem peekResult_cqes (s : CqState) (r : Nat × PeekEnd) : (peekResult c s r).ring.cqes = s.cqes := by
  obtain ⟨m, o⟩ := r
  cases o <;> rfl

/-- **`__io_uring_peek_cqe` consumes internal timeouts.** It always returns. It consumes the
longest prefix of the queue made of tagged CQEs that did not fail, and then: on an empty rest it
returns `NULL`; at a tagged CQE that failed it consumes that one too and returns its error
with `NULL`; at an untagged CQE it returns that CQE, and consumes nothing more. -/
theorem peekCqe_skips_timeouts (s : CqState) :
    let q := cqQueue c s
    let m := (q.takeWhile c.stepsOver).length
    ∃ pk, __ioUringPeekCqe c s = some pk ∧ pk.ring.ktail = s.ktail ∧ pk.ring.cqes = s.cqes ∧
      (∀ e ∈ q.take m, c.skips e = true ∧ ¬ e.res < 0) ∧
      match q[m]? with
      | none => pk.ring.khead = s.khead + BitVec.ofNat 32 m ∧ pk.cqe = none ∧ pk.err = 0
      | some e =>
        if c.skips e then
          pk.ring.khead = s.khead + BitVec.ofNat 32 m + 1 ∧ pk.cqe = none ∧ pk.err = e.res ∧ e.res < 0
        else
          pk.ring.khead = s.khead + BitVec.ofNat 32 m ∧ pk.cqe = some (ioUringCqeIndex c pk.ring.khead) ∧
            s.cqes (ioUringCqeIndex c pk.ring.khead) = e ∧ pk.err = 0 := by
  dsimp only
  obtain ⟨m, hm⟩ : ∃ m, m = ((cqQueue c s).takeWhile c.stepsOver).length := ⟨_, rfl⟩
  rw [← hm]
  refine ⟨_, peekCqe_eq s, peekResult_ktail s _, peekResult_cqes s _, fun e he => ?_, ?_⟩
  · rw [hm, ← List.prefix_iff_eq_take.1 (List.takeWhile_prefix c.stepsOver)] at he
    simpa [CqConf.stepsOver] using List.mem_takeWhile_imp he
  · rw [peekScan_eq_takeWhile, ← hm]
    unfold peekEnd
    cases hq : (cqQueue c s)[m]? with
    | none => exact ⟨rfl, rfl, rfl⟩
    | some e =>
      dsimp only
      by_cases hs : c.skips e
      · rw [if_pos hs, if_pos hs]
        -- the CQE the loop stopped at is one it may not step over
        have hst := getElem?_length_takeWhile (hm ▸ hq)
        have hn : e.res < 0 := by simpa [CqConf.stepsOver, hs] using hst
        exact ⟨rfl, rfl, rfl, hn⟩
      · rw [if_neg hs, if_neg hs]
        have hlt : m < (ioUringCqReady s).toNat := by
          have := (List.getElem?_eq_some_iff.1 hq).1
          rwa [cqQueue, length_window] at this
        refine ⟨rfl, rfl, ?_, rfl⟩
        have := cqQueue_getElem? (c := c) s hlt
        rw [hq] at this
        exact (Option.some.inj this).symm

/-! ## Draining the ring -/

/-- An application draining the ring with single peeks, as after `io_uring_peek_cqe` /
`io_uring_wait_cqe`: it peeks; on a CQE it reads it and calls `io_uring_cqe_seen`; on the error
of a failed internal timeout it peeks again; on an empty ring it stops. At most `fuel` peeks. -/
def drainByPeek (c : CqConf) : Nat → CqState → List IoUringCqe
  | 0, _ => []
  | fuel + 1, s =>
    match __ioUringPeekCqe c s with
    | none => []
    | some pk =>
      match pk.cqe with
      | some i => pk.ring.cqes i :: drainByPeek c fuel (ioUringCqeSeen pk.ring pk.cqe)
      | none => if pk.err = 0 then [] else drainByPeek c fuel pk.ring

theorem CqState.eq_with_khead {s t : CqState} (h1 : t.ktail = s.ktail) (h2 : t.cqes = s.cqes) :
    t = { s with khead := t.khead } := by
  cases t; cases s; simp_all

/-- A queue split at the CQE where the peek loop stopped. -/
theorem queue_split {q : List IoUringCqe} {m : Nat} {e : IoUringCqe} (hq : q[m]? = some e) :
    q = q.take m ++ e :: q.drop (m + 1) := by
  have hm := (List.getElem?_eq_some_iff.1 hq)
  obtain ⟨hlt, he⟩ := hm
  rw [← he, ← List.drop_eq_getElem_cons hlt, List.take_append_drop]

/-- **Single peeks deliver exactly the untagged CQEs, in order.** Given more peeks than there
are CQEs, the application sees every CQE of the queue that is not an internal timeout's. The
induction is on the fuel: each peek consumes at least one CQE unless the ring is empty. -/
theorem drainByPeek_eq_filter : ∀ (fuel : Nat) (s : CqState), (ioUringCqReady s).toNat < fuel →
    drainByPeek c fuel s = (cqQueue c s).filter fun e => !c.skips e
  | 0, _, h => absurd h (Nat.not_lt_zero _)
  | fuel + 1, s, h => by
    obtain ⟨pk, hpk, hkt, hcq, hpre, hend⟩ := peekCqe_skips_timeouts (c := c) s
    generalize ((cqQueue c s).takeWhile c.stepsOver).length = m at hpre hend
    have hring := CqState.eq_with_khead hkt hcq
    -- the CQEs stepped over are all internal timeouts
    have hnil : ((cqQueue c s).take m).filter (fun e => !c.skips e) = [] :=
      List.filter_eq_nil_iff.2 fun e he => by simp [(hpre e he).1]
    have hlen : (cqQueue c s).length = (ioUringCqReady s).toNat := length_window _ _ _
    -- after the peek and a `seen`, or after a failed timeout, `m + 1` CQEs are consumed
    have hadv : ∀ t : CqState, t.ktail = s.ktail → t.cqes = s.cqes → t.khead = s.khead + BitVec.ofNat 32 m + 1 →
        t = { s with khead := s.khead + BitVec.ofNat 32 (m + 1) } := fun t h1 h2 h3 => by
      rw [CqState.eq_with_khead h1 h2, h3, BitVec.ofNat_add, show BitVec.ofNat 32 1 = 1 from rfl, BitVec.add_assoc]
    rw [drainByPeek, hpk]
    dsimp only
    revert hend
    cases hq : (cqQueue c s)[m]? with
    | none =>
      -- the loop ran out of CQEs: all of them were timeouts
      rintro ⟨-, hc, he⟩
      rw [hc]
      dsimp only
      rw [if_pos he]
      rw [List.take_of_length_le (List.getElem?_eq_none_iff.1 hq)] at hnil
      exact hnil.symm
    | some e =>
      have hlt := (List.getElem?_eq_some_iff.1 hq).1
      have hk : m + 1 ≤ (ioUringCqReady s).toNat := by omega
      have hsplit := queue_split hq
      dsimp only
      split
      · -- a failed timeout: consumed with the ones before it, and the peeks go on
        rintro ⟨hh, hc, he, hn⟩
        rename_i hs
        have hne : pk.err ≠ 0 := fun e0 => by rw [he] at e0; rw [e0] at hn; exact absurd hn (by decide)
        rw [hc]
        dsimp only
        rw [if_neg hne, hadv pk.ring hkt hcq hh, drainByPeek_eq_filter fuel _ (by rw [ready_advance hk]; omega),
          cqQueue_advance hk]
        conv => rhs; rw [hsplit]
        rw [List.filter_append, hnil, List.filter_cons, if_neg (by simp [hs]), List.nil_append]
      · -- a CQE for the application: delivered, seen, and the peeks go on
        rintro ⟨hh, hc, he, -⟩
        rename_i hs
        rw [hc]
        dsimp only
        have hseen : ioUringCqeSeen pk.ring (some (ioUringCqeIndex c pk.ring.khead)) =
            { s with khead := s.khead + BitVec.ofNat 32 (m + 1) } := by
          rw [ioUringCqeSeen, Option.isSome_some, if_pos rfl]
          exact hadv _ (by rw [ioUringCqAdvance_ktail, hkt]) (by rw [ioUringCqAdvance_cqes, hcq])
            (by rw [ioUringCqAdvance_khead, hh])
        rw [hcq, he, hseen, drainByPeek_eq_filter fuel _ (by rw [ready_advance hk]; omega), cqQueue_advance hk]
        conv => rhs; rw [hsplit]
        rw [List.filter_append, hnil, List.filter_cons, if_pos (by simp [hs]), List.nil_append]

/-! ## The batch path -/

/-- The two-entry CQ of `cqConfTwo` on a kernel without IORING_FEAT_EXT_ARG. -/
def cqConfLegacy : CqConf := ⟨0, 0, 2, 1, 1, cqConfTwo.log_le, cqConfTwo.entries_eq, cqConfTwo.mask_eq⟩

/-- A CQ holding one CQE: an internal timeout that expired. -/
def timeoutPosted : CqState := ⟨0, 1, fun _ => ⟨LIBURING_UDATA_TIMEOUT, -ETIME, 0⟩⟩

/-- `io_uring_peek_batch_cqe` hands the internal timeout's CQE to the application, where single
peeks deliver nothing. -/
theorem peekBatch_returns_timeout :
    (ioUringPeekBatchCqe cqConfLegacy id 0 timeoutPosted 1).2.1.map timeoutPosted.cqes =
        [⟨LIBURING_UDATA_TIMEOUT, -ETIME, 0⟩] ∧
      cqConfLegacy.skips ⟨LIBURING_UDATA_TIMEOUT, -ETIME, 0⟩ = true ∧
      drainByPeek cqConfLegacy 2 timeoutPosted = [] := by
  decide

/-- **Which path filters internal timeouts.** `__io_uring_peek_cqe` always returns; it consumes
the longest prefix of internal timeouts that did not fail, then a failed one (returning its
error with `NULL`) or nothing more, and otherwise returns the first other CQE. Single peeks
therefore deliver exactly the CQEs that are not internal timeouts, in order. The batch path
filters nothing: it hands out the oldest `min(count, ready)` CQEs, tagged or not, so the two
paths deliver the same CQEs exactly when the queue holds no internal timeout. -/
theorem peekCqe_filters_timeouts (c : CqConf) (s : CqState) :
    (let q := cqQueue c s
      let m := (q.takeWhile c.stepsOver).length
      ∃ pk, __ioUringPeekCqe c s = some pk ∧ pk.ring.ktail = s.ktail ∧ pk.ring.cqes = s.cqes ∧
        (∀ e ∈ q.take m, c.skips e = true ∧ ¬ e.res < 0) ∧
        match q[m]? with
        | none => pk.ring.khead = s.khead + BitVec.ofNat 32 m ∧ pk.cqe = none ∧ pk.err = 0
        | some e =>
          if c.skips e then
            pk.ring.khead = s.khead + BitVec.ofNat 32 m + 1 ∧ pk.cqe = none ∧ pk.err = e.res ∧ e.res < 0
          else
            pk.ring.khead = s.khead + BitVec.ofNat 32 m ∧ pk.cqe = some (ioUringCqeIndex c pk.ring.khead) ∧
              s.cqes (ioUringCqeIndex c pk.ring.khead) = e ∧ pk.err = 0) ∧
      (∀ fuel, (ioUringCqReady s).toNat < fuel →
        drainByPeek c fuel s = (cqQueue c s).filter fun e => !c.skips e) ∧
      (∀ getEvents kflags count,
        let r := ioUringPeekBatchCqe c getEvents kflags s count
        r.2.2.toNat = min count.toNat (ioUringCqReady r.1).toNat ∧
          r.2.1.map r.1.cqes = (cqQueue c r.1).take count.toNat) ∧
      (∀ fuel, (ioUringCqReady s).toNat < fuel →
        (drainByPeek c fuel s = cqQueue c s ↔ ∀ e ∈ cqQueue c s, c.skips e = false)) := by
  refine ⟨peekCqe_skips_timeouts s, fun fuel h => drainByPeek_eq_filter fuel s h,
    fun ge kf count => peekBatch_oldest ge kf s count, fun fuel h => ?_⟩
  rw [drainByPeek_eq_filter fuel s h, List.filter_eq_self]
  simp

end Liburing
