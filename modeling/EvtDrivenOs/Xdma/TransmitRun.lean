/-
Runs of the transmit queue with one interrupt for each batch.

The engine raises its completion interrupt after the last descriptor of a batch
and after no other, and the handler serves it before the next batch.  Over every
run the engine then sends exactly the accepted frames; `TxCorrect` lists this
together with what the lock and the counter say in every state on the way.
-/
import EvtDrivenOs.Lib.Run
import EvtDrivenOs.Xdma.TransmitQueue

namespace EvtDrivenOs.Xdma

open EvtDrivenOs.Lib

/-- The steps of the transmit side.  A step of the engine sends one descriptor and
tells whether it raises the completion interrupt. -/
inductive TxEvent
  | enque (mem : Frame)
  | flush
  | send (ioc : Bool)
  | irq

/-- What an event does. -/
def txStep (t : TxSys) : TxEvent → TxSys
  | .enque mem => t.enque mem
  | .flush => t.flush
  | .send ioc => t.send ioc
  | .irq => t.irq

/-- The frames have at most 65535 bytes.  The engine sends while it is active, and raises
the interrupt after the last descriptor; the interrupt of a batch in flight is served
when this has happened. -/
def txOk (t : TxSys) : TxEvent → Prop
  | .enque mem => mem.length ≤ 65535
  | .flush => True
  | .send ioc => t.drv.dma2Mm2s.active = true ∧ ioc = mm2sAtTail t.drv
  | .irq => t.inFlight ∧ t.drv.dma2Mm2s.active = false

instance (t : TxSys) (e : TxEvent) : Decidable (txOk t e) :=
  match e with
  | .enque mem => inferInstanceAs (Decidable (mem.length ≤ 65535))
  | .flush => isTrue trivial
  | .send ioc => inferInstanceAs (Decidable (_ = true ∧ ioc = _))
  | .irq => inferInstanceAs (Decidable (t.inFlight ∧ _ = false))

/-- What holds after every such run that started from the driver state `s₀`. -/
structure TxCorrect (s₀ : State) (t : TxSys) : Prop where
  /-- The engine sends the accepted frames in the order of acceptance, each once. -/
  wire : t.wire = t.accepted.take t.wire.length
  /-- It sends no frame that is still queued, and all of a batch before its completion. -/
  sent_le : t.wire.length ≤ t.started
  sent_ge : t.finished ≤ t.wire.length
  sent_all : ¬ t.inFlight → t.wire = t.accepted.take t.started
  /-- When nothing is queued and nothing in flight, all accepted frames were sent. -/
  sent_accepted : ¬ t.inFlight → t.queued = 0 → t.wire = t.accepted
  /-- The queue is locked exactly while a batch is in flight. -/
  locked_iff : t.drv.ethTxtail = 0xFF ↔ t.inFlight
  /-- No frame is accepted while a batch is in flight. -/
  rejects_in_flight : t.inFlight → ∀ mem, ethdmaTxsgenque t.drv mem = (none, t.drv)
  /-- A rejected frame changes nothing. -/
  rejects : ∀ mem, (ethdmaTxsgenque t.drv mem).1 = none → (ethdmaTxsgenque t.drv mem).2 = t.drv
  /-- An accepted frame changes no descriptor and no byte of any frame that was accepted
  before and is not finished. -/
  accepts : ∀ mem b i, mem.length ≤ 65535 → (ethdmaTxsgenque t.drv mem).1 = some b →
    t.finished + i < t.accepted.length →
    (ethdmaTxsgenque t.drv mem).2.bd (txBd i) = t.drv.bd (txBd i) ∧
      bdFrame (ethdmaTxsgenque t.drv mem).2 (txBd i) = bdFrame t.drv (txBd i)
  /-- `txcount` counts the frames of finished batches. -/
  count : t.drv.txcount + UInt32.ofNat t.queued + UInt32.ofNat (t.started - t.finished)
    = s₀.txcount + UInt32.ofNat t.accepted.length
  /-- After a boot the counter starts at zero. -/
  count_boot : s₀.txcount = 0 →
    t.drv.txcount + UInt32.ofNat t.queued + UInt32.ofNat (t.started - t.finished)
      = UInt32.ofNat t.accepted.length
  /-- Serving the interrupt of a batch unlocks the queue. -/
  unlocks : t.inFlight → t.drv.dma2Mm2s.active = false → ¬ t.irq.inFlight

/-- The interrupt was raised if the last descriptor of the batch was sent. -/
def TxRaised (t : TxSys) : Prop :=
  t.inFlight → t.drv.dma2Mm2s.active = false → t.drv.dma2Mm2s.sr.iocIrq = true

namespace TxInv

variable {chunk : ℕ} {s₀ : State} {t : TxSys}

lemma sent_le (h : TxInv chunk s₀ t) : t.wire.length ≤ t.started := by
  rcases h.phase with hi | hb
  · exact hi.sent.le
  · exact hb.sent

lemma count_eq (h : TxInv chunk s₀ t) :
    t.drv.txcount + UInt32.ofNat t.queued + UInt32.ofNat (t.started - t.finished)
      = s₀.txcount + UInt32.ofNat t.accepted.length := by
  have hfin := h.finished_le
  have hle := h.started_le
  have hsum : t.accepted.length = t.finished + (t.started - t.finished) + t.queued := by
    unfold TxSys.queued
    omega
  rw [h.txcount, hsum]
  generalize t.started - t.finished = m
  simp only [UInt32.ofNat_add]
  grind

lemma accepts (h : TxInv chunk s₀ t) {mem : Frame} {b i : ℕ} (hmem : mem.length ≤ 65535)
    (hb : (ethdmaTxsgenque t.drv mem).1 = some b) (hi : t.finished + i < t.accepted.length) :
    (ethdmaTxsgenque t.drv mem).2.bd (txBd i) = t.drv.bd (txBd i) ∧
      bdFrame (ethdmaTxsgenque t.drv mem).2 (txBd i) = bdFrame t.drv (txBd i) := by
  obtain ⟨hbd, hram⟩ := h.enque_keeps hmem hb hi
  have hholds := h.holds i hi
  have hkept := hholds.keep (by rw [hbd]) (by rw [hbd]) (h.frame_lt i hi).le hram
  exact ⟨hbd, by rw [hkept.bdFrame, hholds.bdFrame]⟩

lemma correct (h : TxInv chunk s₀ t) (hraised : TxRaised t) : TxCorrect s₀ t where
  wire := h.wire
  sent_le := h.sent_le
  sent_ge := h.sent_ge
  sent_all hnot := by rw [← (h.idle hnot).sent]; exact h.wire
  sent_accepted hnot hqueued := by
    have hle := h.started_le
    have hall : t.accepted.length ≤ t.wire.length := by
      rw [(h.idle hnot).sent]
      unfold TxSys.queued at hqueued
      omega
    exact h.wire.trans (List.take_of_length_le hall)
  locked_iff := h.tail_eq_iff
  rejects_in_flight hin mem := enque_of_locked (h.tail_eq_iff.2 hin) mem
  rejects _ hnone := enque_rejected hnone
  accepts _ _ _ hmem hb hi := h.accepts hmem hb hi
  count := h.count_eq
  count_boot h0 := by rw [h.count_eq, h0, UInt32.zero_add]
  unlocks hin hact := (h.irq_done hin hact (hraised hin hact)).2

end TxInv

/-- The invariant of runs with one interrupt for each batch. -/
def TxOnceInv (chunk : ℕ) (s₀ : State) (t : TxSys) : Prop := TxInv chunk s₀ t ∧ TxRaised t

lemma TxOnceInv.step {chunk : ℕ} {s₀ : State} {t : TxSys} (hinv : TxOnceInv chunk s₀ t)
    {e : TxEvent} (he : txOk t e) : TxOnceInv chunk s₀ (txStep t e) := by
  obtain ⟨h, hraised⟩ := hinv
  cases e with
  | enque mem =>
    refine ⟨h.enque he, fun hin hact => ?_⟩
    have hin' : t.inFlight := hin
    have hlock := enque_of_locked (h.tail_eq_iff.2 hin') mem
    simp only [txStep, TxSys.enque, hlock] at hact ⊢
    exact hraised hin' hact
  | flush =>
    refine ⟨h.flush, fun hin hact => ?_⟩
    by_cases hin' : t.inFlight
    · have hkeep := t.flush_of_locked (Or.inr (h.tail_eq_iff.2 hin'))
      simp only [txStep, hkeep] at hact ⊢
      exact hraised hin' hact
    · exact absurd hact (by rw [txStep, h.active_of_flush hin' hin]; decide)
  | send ioc =>
    obtain ⟨hactive, rfl⟩ := he
    refine ⟨h.send hactive _, fun _ hact => ?_⟩
    simp only [txStep, TxSys.send, active_mm2sSend, hactive, Bool.true_and, Bool.not_eq_false']
      at hact
    simp only [txStep, TxSys.send, mm2sSend, hact, Bool.or_true]
  | irq =>
    obtain ⟨hinv, hnot⟩ := h.irq_done he.1 he.2 (hraised he.1 he.2)
    exact ⟨hinv, fun hin => absurd hin hnot⟩

/-- The driver after `_xtemac_start` has set up the transmit ring. -/
def txBoot : State :=
  match ethdmaTxsgnormal {} 15360 1536 with
  | .ok (_, s) => s
  | .error _ => {}

lemma txBoot_eq : ethdmaTxsgnormal {} 15360 1536 = .ok (some xdma2Mm2sBuffer, txBoot) := rfl

end EvtDrivenOs.Xdma
