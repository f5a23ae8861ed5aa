/-
Runs of an event-driven system.

A system is a total step function on states and events; what its environment
may do in a state is a predicate `ok` on states and events.  A run is a list of
events, and it is admissible when every event meets `ok` in the state in which
it happens.  An invariant of one step is an invariant of every admissible run.

For a system whose steps can fail, `runE` stops at the first failure; a step that
succeeds wherever the invariant holds, and keeps it, makes every run succeed.
-/
import Mathlib.Tactic.Common

namespace EvtDrivenOs.Lib

variable {σ ε : Type*}

/-- The state after the events `evs`, taken one after the other. -/
def run (step : σ → ε → σ) (s : σ) (evs : List ε) : σ := evs.foldl step s

/-- Every event of the run meets `ok` in the state in which it happens. -/
def Admissible (step : σ → ε → σ) (ok : σ → ε → Prop) : σ → List ε → Prop
  | _, [] => True
  | s, e :: evs => ok s e ∧ Admissible step ok (step s e) evs

instance instDecidableAdmissible (step : σ → ε → σ) (ok : σ → ε → Prop)
    [∀ s e, Decidable (ok s e)] : ∀ s evs, Decidable (Admissible step ok s evs)
  | _, [] => isTrue trivial
  | s, e :: evs =>
    have := instDecidableAdmissible step ok (step s e) evs
    inferInstanceAs (Decidable (ok s e ∧ Admissible step ok (step s e) evs))

/-- **Invariants of runs.**  What holds at the start and is kept by every step
that the environment may take holds after every admissible run. -/
theorem Admissible.invariant {step : σ → ε → σ} {ok : σ → ε → Prop} {Inv : σ → Prop}
    (hstep : ∀ s e, Inv s → ok s e → Inv (step s e)) {s : σ} {evs : List ε}
    (h : Admissible step ok s evs) (hs : Inv s) : Inv (run step s evs) := by
  induction evs generalizing s with
  | nil => exact hs
  | cons e evs ih => exact ih h.2 (hstep s e hs h.1)

/-- An invariant of every step is an invariant of every run. -/
theorem run_invariant {step : σ → ε → σ} {Inv : σ → Prop}
    (hstep : ∀ s e, Inv s → Inv (step s e)) {s : σ} (hs : Inv s) (evs : List ε) :
    Inv (run step s evs) := by
  induction evs generalizing s with
  | nil => exact hs
  | cons e evs ih => exact ih (hstep s e hs)

/-- If a step keeps `P` just when the environment may take it, then `P` holds all along a run
if and only if the run is admissible. -/
theorem admissible_iff_forall_prefix {step : σ → ε → σ} {ok : σ → ε → Prop} {Inv P : σ → Prop}
    (hinv : ∀ s e, Inv s → Inv (step s e))
    (hstep : ∀ s e, Inv s → P s → (P (step s e) ↔ ok s e)) {s : σ} {evs : List ε} (hs : Inv s)
    (hP : P s) :
    (∀ pre, pre <+: evs → P (run step s pre)) ↔ Admissible step ok s evs := by
  induction evs generalizing s with
  | nil =>
    refine iff_of_true (fun pre hpre => ?_) trivial
    rw [List.prefix_nil.1 hpre]
    exact hP
  | cons e evs ih =>
    constructor
    · intro h
      have he : P (step s e) := h [e] ⟨evs, rfl⟩
      refine ⟨(hstep s e hs hP).1 he, (ih (hinv s e hs) he).1 fun pre hpre => ?_⟩
      exact h (e :: pre) (List.cons_prefix_cons.2 ⟨rfl, hpre⟩)
    · rintro ⟨hok, hrest⟩ pre hpre
      cases pre with
      | nil => exact hP
      | cons e' pre =>
        obtain ⟨rfl, htail⟩ := List.cons_prefix_cons.1 hpre
        exact (ih (hinv s e' hs) ((hstep s e' hs hP).2 hok)).2 hrest pre htail

section Failing

variable {δ : Type*}

/-- The state after the events `evs`, or the first failure. -/
def runE (step : σ → ε → Except δ σ) : σ → List ε → Except δ σ
  | s, [] => .ok s
  | s, e :: evs =>
    match step s e with
    | .error d => .error d
    | .ok s' => runE step s' evs

/-- Every event of the run meets `ok` in the state in which it happens. -/
def AdmissibleE (step : σ → ε → Except δ σ) (ok : σ → ε → Prop) : σ → List ε → Prop
  | _, [] => True
  | s, e :: evs =>
    ok s e ∧
      match step s e with
      | .error _ => True
      | .ok s' => AdmissibleE step ok s' evs

instance instDecidableAdmissibleE (step : σ → ε → Except δ σ) (ok : σ → ε → Prop)
    [∀ s e, Decidable (ok s e)] : ∀ s evs, Decidable (AdmissibleE step ok s evs)
  | _, [] => isTrue trivial
  | s, e :: evs =>
    have : Decidable (match step s e with
        | .error _ => True
        | .ok s' => AdmissibleE step ok s' evs) :=
      match step s e with
      | .error _ => isTrue trivial
      | .ok s' => instDecidableAdmissibleE step ok s' evs
    inferInstanceAs (Decidable (ok s e ∧ _))

/-- A system that does not fail where the invariant holds, on what its environment may
do, does not fail in any admissible run. -/
theorem AdmissibleE.invariant {step : σ → ε → Except δ σ} {ok : σ → ε → Prop} {Inv : σ → Prop}
    (hstep : ∀ s e, Inv s → ok s e → ∃ s', step s e = .ok s' ∧ Inv s') {s : σ} {evs : List ε}
    (h : AdmissibleE step ok s evs) (hs : Inv s) : ∃ s', runE step s evs = .ok s' ∧ Inv s' := by
  induction evs generalizing s with
  | nil => exact ⟨s, rfl, hs⟩
  | cons e evs ih =>
    -- the first step succeeds, so the rest is admissible from its result
    obtain ⟨he, hrest⟩ := h
    obtain ⟨s', hok, hs'⟩ := hstep s e hs he
    rw [hok] at hrest
    rw [runE, hok]
    exact ih hrest hs'

lemma admissibleE_of_forall {step : σ → ε → Except δ σ} {ok : σ → ε → Prop}
    (h : ∀ s e, ok s e) (s : σ) (evs : List ε) : AdmissibleE step ok s evs := by
  induction evs generalizing s with
  | nil => trivial
  | cons e evs ih =>
    refine ⟨h s e, ?_⟩
    split
    · trivial
    · exact ih _

end Failing

end EvtDrivenOs.Lib
