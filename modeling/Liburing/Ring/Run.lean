import Mathlib.Logic.Basic
/-!
# Runs of a step function

A system is a step function `step : σ → ω → σ` together with a predicate `legal s op` saying
which operations its environment may issue in state `s`. A run applies a list of operations in
order; it is legal when every operation is legal in the state it meets. `trace` collects, along
a run, what each step reports (observations, or the abstract actions it stands for). An
invariant is proved once per step (`run_invariant`); a view that maps every legal step to a
block of abstract actions maps the whole run to the abstract run of its trace
(`view_run_of_step`).
-/
namespace SlotRing

variable {σ ω β τ : Type*} (step : σ → ω → σ)

/-- The state after applying `ops` in order. -/
def run : σ → List ω → σ
  | s, [] => s
  | s, op :: ops => run (step s op) ops

/-- Every operation of `ops` is allowed in the state it is applied to. -/
def Legal (legal : σ → ω → Prop) : σ → List ω → Prop
  | _, [] => True
  | s, op :: ops => legal s op ∧ Legal legal (step s op) ops

/-- Legality of a run is decided operation by operation. -/
def decLegal (legal : σ → ω → Prop) [∀ s op, Decidable (legal s op)] :
    ∀ (s : σ) (ops : List ω), Decidable (Legal step legal s ops)
  | _, [] => isTrue trivial
  | s, op :: ops =>
    haveI := decLegal legal (step s op) ops
    inferInstanceAs (Decidable (legal s op ∧ Legal step legal (step s op) ops))

instance {legal : σ → ω → Prop} [∀ s op, Decidable (legal s op)] (s : σ) (ops : List ω) :
    Decidable (Legal step legal s ops) :=
  decLegal step legal s ops

/-- What the steps of a run report, concatenated in order. -/
def trace (out : σ → ω → List β) : σ → List ω → List β
  | _, [] => []
  | s, op :: ops => out s op ++ trace out (step s op) ops

@[simp] theorem run_nil (s : σ) : run step s [] = s := rfl

@[simp] theorem run_cons (s : σ) (op : ω) (ops : List ω) :
    run step s (op :: ops) = run step (step s op) ops := rfl

@[simp] theorem trace_nil (out : σ → ω → List β) (s : σ) : trace step out s [] = [] := rfl

@[simp] theorem trace_cons (out : σ → ω → List β) (s : σ) (op : ω) (ops : List ω) :
    trace step out s (op :: ops) = out s op ++ trace step out (step s op) ops := rfl

theorem run_append (s : σ) (ops ops' : List ω) :
    run step s (ops ++ ops') = run step (run step s ops) ops' := by
  induction ops generalizing s with
  | nil => rfl
  | cons op ops ih => exact ih (step s op)

/-- A run is legal when every operation always is. -/
theorem legal_of_forall {legal : σ → ω → Prop} (h : ∀ s op, legal s op) : ∀ (s : σ) (ops : List ω), Legal step legal s ops
  | _, [] => trivial
  | s, op :: ops => ⟨h s op, legal_of_forall h (step s op) ops⟩

theorem legal_append (legal : σ → ω → Prop) (s : σ) (ops ops' : List ω) :
    Legal step legal s (ops ++ ops') ↔ Legal step legal s ops ∧ Legal step legal (run step s ops) ops' := by
  induction ops generalizing s with
  | nil => simp [Legal]
  | cons op ops ih => simp only [List.cons_append, Legal, ih, run_cons, and_assoc]

section
variable {step} {legal : σ → ω → Prop} (Inv : σ → Prop)

/-- An invariant that every legal step preserves holds after every legal run. -/
theorem run_invariant (hstep : ∀ s op, Inv s → legal s op → Inv (step s op)) :
    ∀ (s : σ) (ops : List ω), Inv s → Legal step legal s ops → Inv (run step s ops)
  | _, [], hs, _ => hs
  | s, op :: ops, hs, ⟨hop, hrest⟩ => run_invariant hstep (step s op) ops (hstep s op hs hop) hrest

/-- The invariant holds at every intermediate state of a legal run, not only at its end. -/
theorem run_invariant_prefix (hstep : ∀ s op, Inv s → legal s op → Inv (step s op))
    (s : σ) (ops : List ω) (hs : Inv s) (hl : Legal step legal s ops) (n : Nat) :
    Inv (run step s (ops.take n)) := by
  induction ops generalizing s n with
  | nil => simpa using hs
  | cons op ops ih =>
    cases n with
    | zero => simpa using hs
    | succ n => exact ih (step s op) (hstep s op hs hl.1) hl.2 n

/-- A property of every block that a legal step reports holds of every entry of the trace of a
legal run. -/
theorem forall_mem_trace (out : σ → ω → List β) (P : β → Prop)
    (hinv : ∀ s op, Inv s → legal s op → Inv (step s op))
    (hP : ∀ s op, Inv s → legal s op → ∀ x ∈ out s op, P x) :
    ∀ (s : σ) (ops : List ω), Inv s → Legal step legal s ops → ∀ x ∈ trace step out s ops, P x
  | _, [], _, _ => by simp
  | s, op :: ops, hs, ⟨hop, hrest⟩ => by
    intro x hx
    rw [trace_cons, List.mem_append] at hx
    rcases hx with hx | hx
    · exact hP s op hs hop x hx
    · exact forall_mem_trace out P hinv hP _ ops (hinv s op hs hop) hrest x hx

/-- A view that turns each legal step into the abstract run of its block of actions turns a
whole legal run into the abstract run of the run's trace. -/
theorem view_run_of_step {α : Type*} (view : σ → τ) (absRun : τ → List α → τ)
    (hnil : ∀ t, absRun t [] = t) (happ : ∀ t l l', absRun t (l ++ l') = absRun (absRun t l) l')
    (label : σ → ω → List α) (hinv : ∀ s op, Inv s → legal s op → Inv (step s op))
    (hview : ∀ s op, Inv s → legal s op → view (step s op) = absRun (view s) (label s op)) :
    ∀ (s : σ) (ops : List ω), Inv s → Legal step legal s ops →
      view (run step s ops) = absRun (view s) (trace step label s ops)
  | s, [], _, _ => (hnil (view s)).symm
  | s, op :: ops, hs, ⟨hop, hrest⟩ => by
    rw [run_cons, trace_cons, happ, ← hview s op hs hop]
    exact view_run_of_step view absRun hnil happ label hinv hview _ ops (hinv s op hs hop) hrest

/-- Observations that each legal step reports as a function of the view and its abstract
block are, along a legal run, the abstract observations of the run's trace. -/
theorem trace_of_step {α : Type*} (view : σ → τ) (absRun : τ → List α → τ)
    (absOut : τ → List α → List β)
    (hnil : ∀ t, absOut t [] = []) (happ : ∀ t l l', absOut t (l ++ l') = absOut t l ++ absOut (absRun t l) l')
    (label : σ → ω → List α) (out : σ → ω → List β) (hinv : ∀ s op, Inv s → legal s op → Inv (step s op))
    (hview : ∀ s op, Inv s → legal s op → view (step s op) = absRun (view s) (label s op))
    (hout : ∀ s op, Inv s → legal s op → out s op = absOut (view s) (label s op)) :
    ∀ (s : σ) (ops : List ω), Inv s → Legal step legal s ops →
      trace step out s ops = absOut (view s) (trace step label s ops)
  | s, [], _, _ => (hnil (view s)).symm
  | s, op :: ops, hs, ⟨hop, hrest⟩ => by
    rw [trace_cons, trace_cons, happ, hout s op hs hop, ← hview s op hs hop,
      trace_of_step view absRun absOut hnil happ label out hinv hview hout _ ops (hinv s op hs hop) hrest]

end

end SlotRing
