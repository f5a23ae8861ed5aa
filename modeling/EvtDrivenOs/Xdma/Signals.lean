/-
The flags that the interrupt handlers of `sys/xdma.c` leave for the main context.

`sgdma_sgls` packs the four flags into one byte.  An assignment to one of them loads the
byte, changes its bit and stores the byte.  A handler is not interrupted, but it may run
between the load and the store of an assignment in the main context, and what it has
written is then overwritten.  Besides, a handler assigns the error flag of its channel
whether there is an error or not.  So a bus error stays flagged until the channel is
restarted unless one of these two things happens: `Undisturbed` excludes them.
-/
import EvtDrivenOs.Lib.Run
import EvtDrivenOs.Xdma.Receive
import EvtDrivenOs.Xdma.Sound
import EvtDrivenOs.Xdma.Transmit

namespace EvtDrivenOs.Xdma

open EvtDrivenOs.Lib

/-- The scatter-gather channels with an interrupt handler. -/
inductive SgdmaChannel
  | ethTx
  | ethRx
  | sb
deriving DecidableEq, Repr

/-- The assignments of the main context, each of `false` to a flag. -/
inductive SglAssign
  | ethdmaTxbuserr
  | ethdmaRxbuserr
  | sbdmaCmplt
  | sbdmaBuserr
deriving DecidableEq, Repr

/-- The functions of the main context that assign to flags, when they succeed. -/
inductive SglCall
  | ethdmaTxsgnormal
  | ethdmaRxsgcyclic
  | sbdmaSgcmplt
  | sbdmaSgcyclic
deriving DecidableEq, Repr

namespace XsgdmaSigset

/-- The error flag of a channel. -/
def buserr (g : XsgdmaSigset) : SgdmaChannel → Bool
  | .ethTx => g.ethdmaTxbuserr
  | .ethRx => g.ethdmaRxbuserr
  | .sb => g.sbdmaBuserr

/-- The flags after the handler of a channel. -/
def irq (g : XsgdmaSigset) (ioc ioe : Bool) : SgdmaChannel → XsgdmaSigset
  | .ethTx => { g with ethdmaTxbuserr := ioe }
  | .ethRx => { g with ethdmaRxbuserr := ioe }
  | .sb => { g with sbdmaCmplt := ioc, sbdmaBuserr := ioe }

/-- The flags with one of them cleared. -/
def assign (g : XsgdmaSigset) : SglAssign → XsgdmaSigset
  | .ethdmaTxbuserr => { g with ethdmaTxbuserr := false }
  | .ethdmaRxbuserr => { g with ethdmaRxbuserr := false }
  | .sbdmaCmplt => { g with sbdmaCmplt := false }
  | .sbdmaBuserr => { g with sbdmaBuserr := false }

end XsgdmaSigset

/-- The assignments of a function, in their order. -/
def SglCall.assigns : SglCall → List SglAssign
  | .ethdmaTxsgnormal => [.ethdmaTxbuserr]
  | .ethdmaRxsgcyclic => [.ethdmaRxbuserr]
  | .sbdmaSgcmplt => [.sbdmaCmplt]
  | .sbdmaSgcyclic => [.sbdmaCmplt, .sbdmaBuserr]

/-- The channel that is restarted with the assignment. -/
def SglAssign.restarts : SglAssign → Option SgdmaChannel
  | .ethdmaTxbuserr => some .ethTx
  | .ethdmaRxbuserr => some .ethRx
  | .sbdmaCmplt => none
  | .sbdmaBuserr => some .sb

/-! ### The handlers and functions of the driver -/

lemma sgdmaSgls_onethdmaTxirq (s : State) :
    (onethdmaTxirq s).sgdmaSgls =
      s.sgdmaSgls.irq s.dma2Mm2s.sr.iocIrq s.dma2Mm2s.sr.errIrq .ethTx := rfl

lemma sgdmaSgls_onethdmaRxirq (s : State) :
    (onethdmaRxirq s).sgdmaSgls =
      s.sgdmaSgls.irq s.dma2S2mm.sr.iocIrq s.dma2S2mm.sr.errIrq .ethRx := rfl

lemma sgdmaSgls_onsbdmaIrq (s : State) :
    (onsbdmaIrq s).sgdmaSgls =
      s.sgdmaSgls.irq s.dma1Mm2s.sr.iocIrq s.dma1Mm2s.sr.errIrq .sb := rfl

/-- The assignments of a function that is not interrupted. -/
def SglCall.clear (c : SglCall) (g : XsgdmaSigset) : XsgdmaSigset :=
  c.assigns.foldl XsgdmaSigset.assign g

lemma sgdmaSgls_ethdmaTxsgnormal {s s' : State} {allocLen ioBuff : UInt32} {p : ℕ}
    (h : ethdmaTxsgnormal s allocLen ioBuff = .ok (some p, s')) :
    s'.sgdmaSgls = SglCall.ethdmaTxsgnormal.clear s.sgdmaSgls := by
  obtain ⟨-, -, rfl⟩ := of_ringSetup h
  rfl

lemma sgdmaSgls_ethdmaRxsgcyclic {s s' : State} {allocLen ioBuff : UInt32} {p : ℕ}
    (h : ethdmaRxsgcyclic s allocLen ioBuff = .ok (some p, s')) :
    s'.sgdmaSgls = SglCall.ethdmaRxsgcyclic.clear s.sgdmaSgls := by
  obtain ⟨-, -, rfl⟩ := of_ringSetup h
  rfl

lemma sgdmaSgls_sbdmaSgcmplt {s s' : State} {len : UInt32} {p : ℕ}
    (h : sbdmaSgcmplt s len = (some p, s')) :
    s'.sgdmaSgls = SglCall.sbdmaSgcmplt.clear s.sgdmaSgls := by
  rw [sbdmaSgcmplt] at h
  split at h
  · cases h
  · dsimp only at h
    split at h
    · cases h
    · cases h
      rfl

lemma sgdmaSgls_sbdmaSgcyclic {s s' : State} {seed : UInt8} {allocLen ioBuff : UInt32} {p : ℕ}
    (h : sbdmaSgcyclic s seed allocLen ioBuff = .ok (some p, s')) :
    s'.sgdmaSgls = SglCall.sbdmaSgcyclic.clear s.sgdmaSgls := by
  obtain ⟨-, -, rfl⟩ := of_ringSetup h
  rfl

/-! ### The flags under interrupts -/

/-- The byte of flags; the assignments that the main context is still to make in its call,
and the byte it has loaded for the first of them; and the channels whose handler has seen an
error since they were last restarted. -/
structure SglSys where
  sgdmaSgls : XsgdmaSigset
  left : List SglAssign := []
  loaded : Option XsgdmaSigset := none
  failed : SgdmaChannel → Bool := fun _ => false

/-- The main context calls a function or makes its next access; a handler runs. -/
inductive SglEvent
  | call (c : SglCall)
  | step
  | irq (ch : SgdmaChannel) (ioc ioe : Bool)
deriving DecidableEq, Repr

/-- The main context stores the byte that it has loaded, changed by the assignment `a`. -/
def SglSys.store (s : SglSys) (g : XsgdmaSigset) (a : SglAssign) (left : List SglAssign) :
    SglSys :=
  { sgdmaSgls := g.assign a
    left := left
    loaded := none
    failed := fun ch => s.failed ch && decide (a.restarts ≠ some ch) }

/-- A call is begun, or goes on by one access, or an interrupt comes in between. -/
def sglStep (s : SglSys) : SglEvent → SglSys
  | .call c =>
    match s.left with
    | [] => { s with left := c.assigns }
    | _ :: _ => s -- the last call is not over
  | .step =>
    match s.left, s.loaded with
    | [], _ => s
    | _ :: _, none => { s with loaded := some s.sgdmaSgls }
    | a :: left, some g => s.store g a left
  | .irq ch ioc ioe =>
    { s with
      sgdmaSgls := s.sgdmaSgls.irq ioc ioe ch
      failed := fun c => s.failed c || (ioe && decide (c = ch)) }

/-- The steps that cannot lose an error.  A handler does not find its channel free of errors
after it has seen one, and an error does not fall between the load and the store of an
assignment, unless the byte loaded flags it already or the assignment restarts the channel. -/
def SglUndisturbed (s : SglSys) : SglEvent → Prop
  | .irq ch _ ioe =>
    if ioe then
      ∀ g ∈ s.loaded, g.buserr ch = true ∨ s.left.head?.bind SglAssign.restarts = some ch
    else s.failed ch = false
  | _ => True

instance (s : SglSys) : ∀ e, Decidable (SglUndisturbed s e)
  | .irq _ _ _ => by
    unfold SglUndisturbed
    infer_instance
  | .call _ => isTrue trivial
  | .step => isTrue trivial

/-! ### Errors stay flagged -/

/-- The errors seen are flagged, and they will be after the assignment that the main context
is making. -/
structure SglInv (s : SglSys) : Prop where
  flagged : ∀ ch, s.failed ch = true → s.sgdmaSgls.buserr ch = true
  loaded : ∀ g ∈ s.loaded, ∀ ch, s.failed ch = true →
    g.buserr ch = true ∨ s.left.head?.bind SglAssign.restarts = some ch

lemma XsgdmaSigset.buserr_irq (g : XsgdmaSigset) (ioc ioe : Bool) (ch c : SgdmaChannel) :
    (g.irq ioc ioe ch).buserr c = if c = ch then ioe else g.buserr c := by
  cases ch <;> cases c <;> rfl

/-- An assignment clears no error flag but that of the channel it restarts. -/
lemma XsgdmaSigset.buserr_assign {a : SglAssign} {ch : SgdmaChannel} (h : a.restarts ≠ some ch)
    (g : XsgdmaSigset) : (g.assign a).buserr ch = g.buserr ch := by
  cases a <;> cases ch <;> first | rfl | exact absurd rfl h

variable {s : SglSys}

lemma SglInv.store {g : XsgdmaSigset} {a : SglAssign} {left : List SglAssign} (h : SglInv s)
    (hleft : s.left = a :: left) (hg : s.loaded = some g) : SglInv (s.store g a left) := by
  refine ⟨fun ch hf => ?_, nofun⟩
  obtain ⟨hf, hr⟩ := Bool.and_eq_true_iff.1 hf
  have hne : a.restarts ≠ some ch := of_decide_eq_true hr
  have hload := h.loaded g hg ch hf
  rw [hleft] at hload
  exact (XsgdmaSigset.buserr_assign hne g).trans (hload.resolve_right hne)

lemma SglInv.irq {ch : SgdmaChannel} {ioc ioe : Bool} (h : SglInv s)
    (he : SglUndisturbed s (.irq ch ioc ioe)) : SglInv (sglStep s (.irq ch ioc ioe)) := by
  rw [SglUndisturbed] at he
  constructor
  · intro c hfc
    rw [sglStep, XsgdmaSigset.buserr_irq]
    rcases Bool.or_eq_true_iff.1 hfc with hf | hf
    · split
      · next hc =>
        cases ioe with
        | false =>
          rw [if_neg Bool.false_ne_true, ← hc] at he
          exact he.symm.trans hf
        | true => rfl
      · exact h.flagged c hf
    · obtain ⟨hioe, hc⟩ := Bool.and_eq_true_iff.1 hf
      rw [if_pos (of_decide_eq_true hc), hioe]
  · intro g hg c hf
    rcases Bool.or_eq_true_iff.1 hf with hf | hf
    · exact h.loaded g hg c hf
    · obtain ⟨hioe, hc⟩ := Bool.and_eq_true_iff.1 hf
      rw [if_pos hioe] at he
      rw [of_decide_eq_true hc]
      exact he g hg

lemma SglInv.step {e : SglEvent} (h : SglInv s) (he : SglUndisturbed s e) :
    SglInv (sglStep s e) := by
  cases e with
  | irq ch ioc ioe => exact h.irq he
  | call c =>
    rw [sglStep]
    split
    · next hleft =>
      refine ⟨h.flagged, fun g hg ch hf => .inl ?_⟩
      have hload := h.loaded g hg ch hf
      rw [hleft] at hload
      exact hload.resolve_right nofun
    · exact h
  | step =>
    rw [sglStep]
    split
    · exact h
    · exact ⟨h.flagged, fun g hg ch hf => .inl (Option.some.inj hg ▸ h.flagged ch hf)⟩
    · next hleft hg => exact h.store hleft hg

/-- **Bus errors stay flagged** in every run whose steps are all undisturbed: whenever the
handler of a channel has seen an error, and the channel has not been restarted since, its
error flag is set. -/
theorem buserr_sticky (g : XsgdmaSigset) {evs : List SglEvent}
    (hevs : Admissible sglStep SglUndisturbed { sgdmaSgls := g } evs) (ch : SgdmaChannel)
    (hf : (run sglStep { sgdmaSgls := g } evs).failed ch = true) :
    (run sglStep { sgdmaSgls := g } evs).sgdmaSgls.buserr ch = true := by
  have hstart : SglInv { sgdmaSgls := g } := ⟨nofun, nofun⟩
  have hinv : SglInv (run sglStep { sgdmaSgls := g } evs) :=
    hevs.invariant (fun _ _ h he => h.step he) hstart
  exact hinv.flagged ch hf

/-- An error of the transmitter between two calls, and a completion of the audio channel
within one. -/
theorem buserr_sticky_tx :
    (run sglStep { sgdmaSgls := {} } [.call .sbdmaSgcmplt, .step, .step, .irq .ethTx false true,
      .call .sbdmaSgcmplt, .step, .irq .sb true false, .step]).sgdmaSgls.buserr .ethTx = true :=
  buserr_sticky {} (by decide) .ethTx (by decide)

/-- An error of the transmitter is lost when the next interrupt of the channel has none, or
when it comes between the load and the store of `_sbdma_sgcmplt`. -/
theorem buserr_lost :
    let next := run sglStep { sgdmaSgls := {} } [.irq .ethTx false true, .irq .ethTx true false]
    let between := run sglStep { sgdmaSgls := {} }
      [.call .sbdmaSgcmplt, .step, .irq .ethTx false true, .step]
    (next.failed .ethTx = true ∧ next.sgdmaSgls.buserr .ethTx = false) ∧
      (between.failed .ethTx = true ∧ between.sgdmaSgls.buserr .ethTx = false) := by
  decide

end EvtDrivenOs.Xdma
