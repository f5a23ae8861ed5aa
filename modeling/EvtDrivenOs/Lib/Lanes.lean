/-
Mixing states: a state is one value for each lane of an index type, and a mixing step
replaces the value of one lane.

A step loses nothing when the new value determines the old one, whatever the other lanes
have; a run of such steps, one for each letter of a message, keeps two messages apart that
differ in one letter.
-/
import Mathlib.Logic.Function.Basic
import Mathlib.Data.List.Basic

namespace EvtDrivenOs.Lib.Lanes

open Function

section Run

variable {σ β : Type*} {step : σ → β → σ}

/-- A run of steps that are injective in the state is injective in the state. -/
lemma injective_foldl {l : List β} (hstep : ∀ b ∈ l, Injective fun s => step s b) :
    Injective fun s => l.foldl step s := by
  induction l with
  | nil => exact injective_id
  | cons b l ih =>
    have hl := ih fun c hc => hstep c (List.mem_cons_of_mem b hc)
    exact hl.comp (hstep b List.mem_cons_self)

/-- Two messages that differ in one letter only leave different states. -/
lemma foldl_ne_of_single {p q : List β} {b c : β} (s : σ)
    (hq : ∀ d ∈ q, Injective fun s => step s d)
    (hbc : ∀ s, step s b ≠ step s c) :
    (p ++ b :: q).foldl step s ≠ (p ++ c :: q).foldl step s := by
  rw [List.foldl_append, List.foldl_append]
  intro h
  exact hbc _ (injective_foldl hq h)

/-- Lists of one length that differ at one index have a common part before it and one after
it. -/
lemma exists_single_difference {l l' : List β} {k : ℕ} (hlen : l.length = l'.length)
    (hk : l[k]? ≠ l'[k]?) (hother : ∀ j, j ≠ k → l[j]? = l'[j]?) :
    ∃ p q b c, b ≠ c ∧ l = p ++ b :: q ∧ l' = p ++ c :: q := by
  have hlt : k < l.length := by
    by_contra hge
    rw [List.getElem?_eq_none (by omega), List.getElem?_eq_none (by omega)] at hk
    exact hk rfl
  have hlt' : k < l'.length := hlen ▸ hlt
  have htake : l'.take k = l.take k := by
    apply List.ext_getElem?
    intro j
    rw [List.getElem?_take, List.getElem?_take]
    split
    · exact (hother j (by omega)).symm
    · rfl
  have hdrop : l'.drop (k + 1) = l.drop (k + 1) := by
    apply List.ext_getElem?
    intro j
    rw [List.getElem?_drop, List.getElem?_drop]
    exact (hother _ (by omega)).symm
  refine ⟨l.take k, l.drop (k + 1), l[k], l'[k], ?_, ?_, ?_⟩
  · intro h
    exact hk (by rw [List.getElem?_eq_getElem hlt, List.getElem?_eq_getElem hlt', h])
  · rw [← List.drop_eq_getElem_cons hlt, List.take_append_drop]
  · rw [← htake, ← hdrop, ← List.drop_eq_getElem_cons hlt', List.take_append_drop]

end Run

section Lane

variable {ι α : Type*} [DecidableEq ι]

/-- The lane `i` gets `g` of its value. -/
def turn (i : ι) (g : α → α) (s : ι → α) : ι → α := update s i (g (s i))

/-- The lane `i` gets what `f` makes of the lane `j` and its own value. -/
def mix (i j : ι) (f : α → α → α) (s : ι → α) : ι → α := turn i (f (s j)) s

@[simp] lemma turn_self (i : ι) (g : α → α) (s : ι → α) : turn i g s i = g (s i) :=
  update_self ..

lemma turn_of_ne {i k : ι} (h : k ≠ i) (g : α → α) (s : ι → α) : turn i g s k = s k :=
  update_of_ne h ..

/-- Mixing in another lane loses nothing. -/
lemma injective_mix {i j : ι} {f : α → α → α} (hij : j ≠ i) (hf : ∀ y, Injective (f y)) :
    Injective (mix i j f) := by
  intro s t h
  have hother : ∀ k, k ≠ i → s k = t k := by
    intro k hk
    have hsame := congrFun h k
    rwa [mix, mix, turn_of_ne hk, turn_of_ne hk] at hsame
  -- what was mixed in is the same on both sides
  have hlane := congrFun h i
  rw [mix, mix, turn_self, turn_self, hother j hij] at hlane
  ext k
  by_cases hk : k = i
  · rw [hk]
    exact hf _ hlane
  · exact hother k hk

/-- Replacing a lane by a function of itself loses nothing if the function does not. -/
lemma injective_turn {i : ι} {g : α → α} (hg : Injective g) : Injective (turn i g) := by
  intro s t h
  ext k
  have hk := congrFun h k
  by_cases hki : k = i
  · subst hki
    rw [turn_self, turn_self] at hk
    exact hg hk
  · rwa [turn_of_ne hki, turn_of_ne hki] at hk

end Lane

end EvtDrivenOs.Lib.Lanes
