/-
The transmit queue against an engine that raises its interrupt early.

Every descriptor ends a frame and the interrupt threshold is left at zero, so the
engine may raise the completion interrupt after any descriptor of a batch.
`onethdma_txirq` takes every interrupt for the completion of the whole batch.
This is right exactly when the engine has sent the last descriptor by the time
the interrupt is served.
-/
import EvtDrivenOs.Xdma.TransmitRun

namespace EvtDrivenOs.Xdma

open EvtDrivenOs.Lib

/-- The engine may raise the interrupt after any descriptor.  An interrupt belongs to a
batch in flight, and it is served after the last descriptor of this batch was sent. -/
def txUnlockOk (t : TxSys) : TxEvent → Prop
  | .enque mem => mem.length ≤ 65535
  | .flush => True
  | .send _ => t.drv.dma2Mm2s.active = true
  | .irq => t.drv.dma2Mm2s.sr.iocIrq = true → t.inFlight ∧ t.drv.dma2Mm2s.active = false

instance (t : TxSys) (e : TxEvent) : Decidable (txUnlockOk t e) :=
  match e with
  | .enque mem => inferInstanceAs (Decidable (mem.length ≤ 65535))
  | .flush => isTrue trivial
  | .send _ => inferInstanceAs (Decidable (_ = true))
  | .irq => inferInstanceAs (Decidable (_ = true → t.inFlight ∧ _ = false))

/-- The queue is open only when all frames handed to the engine were sent. -/
structure TxReleased (s₀ : State) (t : TxSys) : Prop where
  /-- `txcount` counts frames that were sent. -/
  count : t.drv.txcount = s₀.txcount + UInt32.ofNat t.finished
  /-- None of them is still to be sent. -/
  count_le : t.finished ≤ t.wire.length
  /-- The queue is unlocked only when the engine has sent all it was given. -/
  released : t.drv.ethTxtail ≠ 0xFF → t.wire.length = t.started
  /-- The run bit is cleared only when the engine is done. -/
  stopped : t.drv.dma2Mm2s.cr.rs = false → t.drv.dma2Mm2s.active = false
  /-- No accepted frame is dropped: those not handed over yet are in the queue, and the
  engine sends the others in order. -/
  kept : t.drv.ethTxtail ≠ 0xFF → t.drv.ethTxtail.toNat = t.queued
  /-- The engine sends the accepted frames in the order of acceptance, each once. -/
  wire : t.wire = t.accepted.take t.wire.length

namespace TxInv

variable {chunk : ℕ} {s₀ : State} {t : TxSys}

lemma released (h : TxInv chunk s₀ t) : TxReleased s₀ t where
  count := h.txcount
  count_le := h.sent_ge
  released htail := (h.idle (mt h.tail_eq_iff.2 htail)).sent
  stopped hrs := by
    rcases h.phase with hi | hb
    · exact hi.active
    · exact absurd hb.running (by rw [hrs]; decide)
  kept htail := (h.idle (mt h.tail_eq_iff.2 htail)).tail
  wire := h.wire

lemma unlockStep (h : TxInv chunk s₀ t) {e : TxEvent} (he : txUnlockOk t e) :
    TxInv chunk s₀ (txStep t e) := by
  cases e with
  | enque mem => exact h.enque he
  | flush => exact h.flush
  | send ioc => exact h.send he ioc
  | irq =>
    cases hioc : t.drv.dma2Mm2s.sr.iocIrq with
    | false => exact h.irq_idle hioc
    | true =>
      obtain ⟨hin, hact⟩ := he hioc
      exact (h.irq_done hin hact hioc).1

/-- Serving an interrupt of a batch is right exactly when the engine is done with it. -/
lemma released_irq_iff (h : TxInv chunk s₀ t) (hin : t.inFlight)
    (hioc : t.drv.dma2Mm2s.sr.iocIrq = true) :
    TxReleased s₀ t.irq ↔ t.drv.dma2Mm2s.active = false := by
  constructor
  · intro hrel
    by_contra hact
    -- the handler opens the queue while a part of the batch is still to be sent
    have hlt := (h.busy hin).active_iff.1 (by simpa using hact)
    have htail : t.irq.drv.ethTxtail = 0 := by simp [TxSys.irq, onethdmaTxirq, hioc]
    have hall : t.wire.length = t.started := hrel.released (by rw [htail]; decide)
    omega
  · intro hact
    exact (h.irq_done hin hact hioc).1.released

end TxInv

/-- **The lock over whole runs.**  As long as every interrupt is served after the last
descriptor of its batch, the queue is released soundly; an interrupt that is served
earlier releases it too early. -/
theorem txUnlock_released {s₀ s₁ : State} {allocLen ioBuff : UInt32} {buf : ℕ}
    {evs : List TxEvent} (hstart : ethdmaTxsgnormal s₀ allocLen ioBuff = .ok (some buf, s₁))
    (hten : allocLen.toNat / ioBuff.toNat = 10)
    (hevs : Admissible txStep txUnlockOk { drv := s₁ } evs) :
    TxReleased s₀ (run txStep { drv := s₁ } evs) ∧
      ((run txStep { drv := s₁ } evs).inFlight →
        (run txStep { drv := s₁ } evs).drv.dma2Mm2s.sr.iocIrq = true →
        (TxReleased s₀ (run txStep { drv := s₁ } evs).irq ↔
          (run txStep { drv := s₁ } evs).drv.dma2Mm2s.active = false)) := by
  have hinv := hevs.invariant (fun _ _ h he => h.unlockStep he) (TxInv.start hstart hten)
  exact ⟨hinv.released, hinv.released_irq_iff⟩

theorem txUnlock_released_boot :
    TxReleased {} (run txStep { drv := txBoot }
        [.enque [1, 2], .enque [3], .flush, .send true, .send false]) ∧
      ((run txStep { drv := txBoot }
          [.enque [1, 2], .enque [3], .flush, .send true, .send false]).inFlight →
        (run txStep { drv := txBoot }
          [.enque [1, 2], .enque [3], .flush, .send true, .send false]).drv.dma2Mm2s.sr.iocIrq
            = true →
        (TxReleased {} (run txStep { drv := txBoot }
            [.enque [1, 2], .enque [3], .flush, .send true, .send false]).irq ↔
          (run txStep { drv := txBoot }
            [.enque [1, 2], .enque [3], .flush, .send true, .send false]).drv.dma2Mm2s.active
              = false)) :=
  txUnlock_released txBoot_eq (by decide) (by decide)

/-- Two frames are flushed, and the interrupt raised after the first one is served: the
queue is open and two frames are counted, but only one was sent. -/
theorem txUnlock_early :
    ¬ TxReleased {} (run txStep { drv := txBoot }
      [.enque [1, 2], .enque [3], .flush, .send true, .irq]) :=
  fun h => absurd h.count_le (by decide)

end EvtDrivenOs.Xdma
