/-
Who has a resource that can be allocated, passed on and freed.

A log of what was done with resources is settled when each of them was never allocated, or
was allocated once and then either passed on or freed, and that once.  A log is settled
when it is put together from pieces that each allocate a new resource and settle it.
-/
import Mathlib.Data.List.Basic

namespace EvtDrivenOs.Lib

/-- What is done with a resource. -/
inductive Custody (ρ : Type*)
  | alloc (r : ρ)
  | passOn (r : ρ)
  | free (r : ρ)
deriving DecidableEq, Repr

namespace Custody

variable {ρ : Type*}

/-- The resource. -/
def res : Custody ρ → ρ
  | alloc r => r
  | passOn r => r
  | free r => r

variable [DecidableEq ρ] {r r' : ρ} {log log' : List (Custody ρ)}

/-- What was done with the resource `r`. -/
def history (r : ρ) (log : List (Custody ρ)) : List (Custody ρ) := log.filter fun c => c.res = r

lemma history_append (r : ρ) (log log' : List (Custody ρ)) :
    history r (log ++ log') = history r log ++ history r log' :=
  List.filter_append _ _

/-- Nothing was done with a resource that the log is not about. -/
lemma history_eq_nil (h : ∀ c ∈ log, c.res ≠ r) : history r log = [] :=
  List.filter_eq_nil_iff.mpr fun c hc hr => h c hc (of_decide_eq_true hr)

/-- Nobody has the resource `r` without having been given it. -/
def Settled (r : ρ) (log : List (Custody ρ)) : Prop :=
  history r log = [] ∨ history r log = [alloc r, passOn r] ∨ history r log = [alloc r, free r]

namespace Settled

lemma nil (r : ρ) : Settled r [] := .inl rfl

lemma passedOn (r : ρ) : Settled r [alloc r, passOn r] := by
  refine .inr (.inl ?_)
  simp [history, res]

lemma freed (r : ρ) : Settled r [alloc r, free r] := by
  refine .inr (.inr ?_)
  simp [history, res]

/-- A log that settles a new resource goes on with the others settled. -/
lemma append (h : ∀ r, Settled r log) (hnew : ∀ c ∈ log, c.res ≠ r') (hone : ∀ c ∈ log', c.res = r')
    (h' : Settled r' log') (r : ρ) : Settled r (log ++ log') := by
  rw [Settled, history_append]
  by_cases hr : r = r'
  · subst hr
    rw [history_eq_nil hnew, List.nil_append]
    exact h'
  · have hother : ∀ c ∈ log', c.res ≠ r := fun c hc hcr => hr (hcr.symm.trans (hone c hc))
    rw [history_eq_nil hother, List.append_nil]
    exact h r

end Settled

end Custody

end EvtDrivenOs.Lib
