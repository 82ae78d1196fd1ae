import Liburing.Ring.Run
/-!
# Staged FIFO queues

The specification the shared-memory rings are checked against, stated without any ring. A
producer stages entries, may overwrite the ones it still holds, and publishes everything it
holds at once; a consumer takes entries from the front of what has been published. Over every
run, what was queued at the start followed by everything published equals everything taken
followed by what is still queued (`Staged.conservation`): each published entry is taken once,
in publication order, and none is lost.

`refines` transfers this to any system whose view maps each legal step to a block of actions
and whose consumer reads exactly what those actions take.
-/
namespace SlotRing

variable {α : Type*}

/-- Published entries not yet taken, and staged entries the producer still holds. -/
structure Staged (α : Type*) where
  queue : List α
  held : List α
deriving DecidableEq, Repr

/-- What producer and consumer can do. -/
inductive Act (α : Type*) where
  /-- The producer stages a new entry behind the ones it holds. -/
  | stage (v : α)
  /-- The producer overwrites its `i`-th held entry. -/
  | edit (i : Nat) (v : α)
  /-- The producer publishes everything it holds. -/
  | publish
  /-- The consumer takes up to `k` entries from the front. -/
  | take (k : Nat)
deriving DecidableEq, Repr

/-- Whether an action overwrites a held entry. -/
def Act.isEdit : Act α → Bool
  | .edit _ _ => true
  | _ => false

namespace Staged

def act (s : Staged α) : Act α → Staged α
  | .stage v => { s with held := s.held ++ [v] }
  | .edit i v => { s with held := s.held.set i v }
  | .publish => ⟨s.queue ++ s.held, []⟩
  | .take k => { s with queue := s.queue.drop k }

/-- What one action hands to the consumer. -/
def taken (s : Staged α) : Act α → List α
  | .take k => s.queue.take k
  | _ => []

/-- What one action publishes. -/
def published (s : Staged α) : Act α → List α
  | .publish => s.held
  | _ => []

def run : Staged α → List (Act α) → Staged α := SlotRing.run act

def takenBy : Staged α → List (Act α) → List α := trace act taken

def publishedBy : Staged α → List (Act α) → List α := trace act published

/-- What one action stages. -/
def staged (_s : Staged α) : Act α → List α
  | .stage v => [v]
  | _ => []

def stagedBy : Staged α → List (Act α) → List α := trace act staged

@[simp] theorem act_stage (s : Staged α) (v : α) : s.act (.stage v) = ⟨s.queue, s.held ++ [v]⟩ := rfl
@[simp] theorem act_edit (s : Staged α) (i : Nat) (v : α) : s.act (.edit i v) = ⟨s.queue, s.held.set i v⟩ := rfl
@[simp] theorem act_publish (s : Staged α) : s.act .publish = ⟨s.queue ++ s.held, []⟩ := rfl
@[simp] theorem act_take (s : Staged α) (k : Nat) : s.act (.take k) = ⟨s.queue.drop k, s.held⟩ := rfl

@[simp] theorem run_nil (s : Staged α) : s.run [] = s := rfl
@[simp] theorem run_cons (s : Staged α) (a : Act α) (as : List (Act α)) : s.run (a :: as) = (s.act a).run as := rfl
@[simp] theorem takenBy_nil (s : Staged α) : s.takenBy [] = [] := rfl
@[simp] theorem takenBy_cons (s : Staged α) (a : Act α) (as : List (Act α)) :
    s.takenBy (a :: as) = s.taken a ++ (s.act a).takenBy as := rfl

@[simp] theorem publishedBy_nil (s : Staged α) : s.publishedBy [] = [] := rfl
@[simp] theorem publishedBy_cons (s : Staged α) (a : Act α) (as : List (Act α)) :
    s.publishedBy (a :: as) = s.published a ++ (s.act a).publishedBy as := rfl

@[simp] theorem stagedBy_nil (s : Staged α) : s.stagedBy [] = [] := rfl
@[simp] theorem stagedBy_cons (s : Staged α) (a : Act α) (as : List (Act α)) :
    s.stagedBy (a :: as) = s.staged a ++ (s.act a).stagedBy as := rfl

@[simp] theorem taken_take (s : Staged α) (k : Nat) : s.taken (.take k) = s.queue.take k := rfl

theorem run_append (s : Staged α) (as as' : List (Act α)) : s.run (as ++ as') = (s.run as).run as' :=
  SlotRing.run_append act s as as'

theorem trace_append {β : Type*} (out : Staged α → Act α → List β) (s : Staged α) (as as' : List (Act α)) :
    trace act out s (as ++ as') = trace act out s as ++ trace act out (s.run as) as' := by
  induction as generalizing s with
  | nil => rfl
  | cons a as ih => simp only [List.cons_append, trace_cons, ih, List.append_assoc]; rfl

theorem takenBy_append (s : Staged α) (as as' : List (Act α)) :
    s.takenBy (as ++ as') = s.takenBy as ++ (s.run as).takenBy as' := trace_append taken s as as'

theorem publishedBy_append (s : Staged α) (as as' : List (Act α)) :
    s.publishedBy (as ++ as') = s.publishedBy as ++ (s.run as).publishedBy as' :=
  trace_append published s as as'

theorem stagedBy_append (s : Staged α) (as as' : List (Act α)) :
    s.stagedBy (as ++ as') = s.stagedBy as ++ (s.run as).stagedBy as' := trace_append staged s as as'

/-- One action: the queue grows by what is published and shrinks by what is taken. -/
theorem act_conservation (s : Staged α) (a : Act α) :
    s.queue ++ s.published a = s.taken a ++ (s.act a).queue := by
  cases a with
  | stage v => simp [published, taken, act]
  | edit i v => simp [published, taken, act]
  | publish => simp [published, taken, act]
  | take k => simp [published, taken, act, List.take_append_drop]

/-- **FIFO law.** The initial queue followed by everything published is everything taken
followed by what remains queued. -/
theorem conservation (s : Staged α) (as : List (Act α)) :
    s.queue ++ s.publishedBy as = s.takenBy as ++ (s.run as).queue := by
  induction as generalizing s with
  | nil => simp [publishedBy, takenBy, run]
  | cons a as ih =>
    have h1 := act_conservation s a
    have h2 := ih (s.act a)
    simp only [publishedBy, takenBy, run, trace_cons, SlotRing.run_cons] at h2 ⊢
    rw [← List.append_assoc, h1, List.append_assoc, h2, List.append_assoc]

/-! ### A producer that never edits

Without edits, every staged entry is published unchanged, so the law extends to the entries
the producer stages: they come out in the order they were staged, each once. -/

/-- One action that is not an edit: what is held and then staged is what is published and then
still held. -/
theorem act_held_conservation (s : Staged α) (a : Act α) (ha : a.isEdit = false) :
    s.held ++ s.staged a = s.published a ++ (s.act a).held := by
  cases a with
  | stage v => simp [staged, published]
  | edit i v => simp [Act.isEdit] at ha
  | publish => simp [staged, published]
  | take k => simp [staged, published]

theorem held_conservation (as : List (Act α)) (h : ∀ a ∈ as, a.isEdit = false) : ∀ s : Staged α,
    s.held ++ s.stagedBy as = s.publishedBy as ++ (s.run as).held := by
  induction as with
  | nil => intro s; simp
  | cons a as ih =>
    intro s
    have ha := h a List.mem_cons_self
    have hrest := ih (fun b hb => h b (List.mem_cons_of_mem a hb)) (s.act a)
    rw [stagedBy_cons, publishedBy_cons, run_cons, ← List.append_assoc, act_held_conservation s a ha,
      List.append_assoc, hrest, List.append_assoc]

/-- **FIFO law for staged entries.** Without edits, the initial queue and held entries followed
by everything staged are everything taken followed by what is still queued and held. -/
theorem conservation_staged (s : Staged α) (as : List (Act α)) (h : ∀ a ∈ as, a.isEdit = false) :
    s.queue ++ s.held ++ s.stagedBy as = s.takenBy as ++ (s.run as).queue ++ (s.run as).held := by
  rw [List.append_assoc, held_conservation as h, ← List.append_assoc, conservation, List.append_assoc]

/-! ### A producer that publishes at once -/

/-- Staging `vs` and publishing appends what was held and `vs` to the queue. -/
theorem run_stage_publish (vs : List α) : ∀ s : Staged α,
    s.run (vs.map .stage ++ [.publish]) = ⟨s.queue ++ s.held ++ vs, []⟩ := by
  induction vs with
  | nil => intro s; simp [run, SlotRing.run, act]
  | cons v vs ih =>
    intro s
    rw [List.map_cons, List.cons_append, run_cons, ih, act_stage]
    simp

theorem takenBy_stage_publish (vs : List α) : ∀ s : Staged α, s.takenBy (vs.map .stage ++ [.publish]) = [] := by
  induction vs with
  | nil => intro s; rfl
  | cons v vs ih => intro s; rw [List.map_cons, List.cons_append, takenBy_cons, ih]; rfl

theorem publishedBy_stage_publish (vs : List α) : ∀ s : Staged α,
    s.publishedBy (vs.map .stage ++ [.publish]) = s.held ++ vs := by
  induction vs with
  | nil => intro s; simp [published]
  | cons v vs ih =>
    intro s
    rw [List.map_cons, List.cons_append, publishedBy_cons, ih, act_stage]
    simp [published]

end Staged

/-- **Refinement.** A system whose view follows `Staged.run` along the action blocks of its legal
steps, and whose consumer reads what those blocks take, obeys the FIFO law: its view at the
start followed by what its trace publishes is what its consumer read followed by its final
queue. -/
theorem refines {σ ω β : Type*} {step : σ → ω → σ} {legal : σ → ω → Prop} (Inv : σ → Prop)
    (view : σ → Staged β) (label : σ → ω → List (Act β)) (out : σ → ω → List β)
    (hinv : ∀ s op, Inv s → legal s op → Inv (step s op))
    (hview : ∀ s op, Inv s → legal s op → view (step s op) = (view s).run (label s op))
    (hout : ∀ s op, Inv s → legal s op → out s op = (view s).takenBy (label s op))
    (s : σ) (ops : List ω) (hs : Inv s) (hl : Legal step legal s ops) :
    view (run step s ops) = (view s).run (trace step label s ops) ∧
      trace step out s ops = (view s).takenBy (trace step label s ops) ∧
      (view s).queue ++ (view s).publishedBy (trace step label s ops) =
        trace step out s ops ++ (view (run step s ops)).queue := by
  have hrun := view_run_of_step Inv view Staged.run (fun _ => rfl) Staged.run_append label hinv hview s ops hs hl
  have htr := trace_of_step Inv view Staged.run Staged.takenBy (fun _ => rfl) Staged.takenBy_append label out
    hinv hview hout s ops hs hl
  refine ⟨hrun, htr, ?_⟩
  rw [htr, hrun]
  exact Staged.conservation _ _

/-- **Refinement, in the system's own terms.** When the producer's moves also report what they
publish, the FIFO law reads: the view's queue at the start followed by everything the run
published is everything the consumer read followed by the final queue. -/
theorem refines_io {σ ω β : Type*} {step : σ → ω → σ} {legal : σ → ω → Prop} (Inv : σ → Prop)
    (view : σ → Staged β) (label : σ → ω → List (Act β)) (inp out : σ → ω → List β)
    (hinv : ∀ s op, Inv s → legal s op → Inv (step s op))
    (hview : ∀ s op, Inv s → legal s op → view (step s op) = (view s).run (label s op))
    (hinp : ∀ s op, Inv s → legal s op → inp s op = (view s).publishedBy (label s op))
    (hout : ∀ s op, Inv s → legal s op → out s op = (view s).takenBy (label s op))
    (s : σ) (ops : List ω) (hs : Inv s) (hl : Legal step legal s ops) :
    (view s).queue ++ trace step inp s ops = trace step out s ops ++ (view (run step s ops)).queue := by
  have hpub := trace_of_step Inv view Staged.run Staged.publishedBy (fun _ => rfl) Staged.publishedBy_append
    label inp hinv hview hinp s ops hs hl
  rw [hpub]
  exact (refines Inv view label out hinv hview hout s ops hs hl).2.2

/-- **Refinement, for a producer that never edits.** When the system's producer reports what
it stages and its blocks hold no edits, the entries its consumer reads are a prefix of what was
staged, and the rest is still queued or held. -/
theorem refines_staged {σ ω β : Type*} {step : σ → ω → σ} {legal : σ → ω → Prop} (Inv : σ → Prop)
    (view : σ → Staged β) (label : σ → ω → List (Act β)) (inp out : σ → ω → List β)
    (hinv : ∀ s op, Inv s → legal s op → Inv (step s op))
    (hview : ∀ s op, Inv s → legal s op → view (step s op) = (view s).run (label s op))
    (hinp : ∀ s op, Inv s → legal s op → inp s op = (view s).stagedBy (label s op))
    (hout : ∀ s op, Inv s → legal s op → out s op = (view s).takenBy (label s op))
    (hedit : ∀ s op, Inv s → legal s op → ∀ a ∈ label s op, a.isEdit = false)
    (s : σ) (ops : List ω) (hs : Inv s) (hl : Legal step legal s ops) :
    (view s).queue ++ (view s).held ++ trace step inp s ops =
      trace step out s ops ++ (view (run step s ops)).queue ++ (view (run step s ops)).held := by
  have hst := trace_of_step Inv view Staged.run Staged.stagedBy (fun _ => rfl) Staged.stagedBy_append
    label inp hinv hview hinp s ops hs hl
  obtain ⟨hrun, htr, -⟩ := refines Inv view label out hinv hview hout s ops hs hl
  rw [hst, htr, hrun]
  exact Staged.conservation_staged _ _ (forall_mem_trace Inv label _ hinv hedit s ops hs hl)

end SlotRing
