/-
The transmit queue with its history.

`TxSys` is the driver together with the frames it accepted and the frames the
engine sent.  Of the accepted frames the first `finished` belong to batches whose
interrupt was served, those up to `started` to batches that were handed to the
engine, and the rest is queued.

`TxInv` is the invariant.  Between two batches the queue is open and `eth_txtail`
counts the queued frames; while a batch is in flight the queue is locked, nothing
is queued behind it, and the engine has sent a part of it in order.  Descriptor
`i` always holds the frame accepted as number `finished + i`.
-/
import EvtDrivenOs.Xdma.Transmit
import Mathlib.Data.List.GetD

namespace EvtDrivenOs.Xdma

open EvtDrivenOs.Lib

/-- The transmit side of the driver, with its history. -/
structure TxSys where
  drv : State
  /-- The frames that `_ethdma_txsgenque` accepted, in this order. -/
  accepted : List Frame := []
  /-- The number of accepted frames that were handed to the engine. -/
  started : ℕ := 0
  /-- The number of accepted frames in batches whose completion was served. -/
  finished : ℕ := 0
  /-- The frames that the engine sent, in this order. -/
  wire : List Frame := []

namespace TxSys

variable (t : TxSys)

/-- A call of `_ethdma_txsgenque`. -/
def enque (mem : Frame) : TxSys :=
  { t with
    drv := (ethdmaTxsgenque t.drv mem).2
    accepted :=
      if (ethdmaTxsgenque t.drv mem).1.isSome then t.accepted ++ [mem] else t.accepted }

/-- A call of `_ethdma_txsgflush`.  When it starts the engine, all frames accepted so
far have been handed over. -/
def flush : TxSys :=
  { t with
    drv := ethdmaTxsgflush t.drv
    started :=
      if !t.drv.dma2Mm2s.active && (ethdmaTxsgflush t.drv).dma2Mm2s.active then t.accepted.length
      else t.started }

/-- The engine sends its current descriptor. -/
def send (ioc : Bool) : TxSys :=
  { t with drv := mm2sSend t.drv ioc, wire := t.wire ++ [mm2sFrame t.drv] }

/-- The transmit interrupt is served. -/
def irq : TxSys :=
  { t with
    drv := onethdmaTxirq t.drv
    finished := if t.drv.dma2Mm2s.sr.iocIrq then t.started else t.finished }

/-- A batch is in flight: it was handed to the engine and its completion was not
served yet. -/
def inFlight : Prop := t.finished < t.started

instance : Decidable t.inFlight := inferInstanceAs (Decidable (_ < _))

/-- An empty or locked queue is not flushed. -/
lemma flush_of_locked (hlock : t.drv.ethTxtail = 0 ∨ t.drv.ethTxtail = 0xFF) : t.flush = t := by
  have hdrv : ethdmaTxsgflush t.drv = t.drv := by simp only [ethdmaTxsgflush, if_pos hlock]
  simp [flush, hdrv]

/-- The accepted frame number `i`. -/
def frame (i : ℕ) : Frame := t.accepted.getD i []

/-- The frames accepted and not yet handed to the engine. -/
def queued : ℕ := t.accepted.length - t.started

end TxSys

/-- The state of the queue between two batches. -/
structure TxIdle (t : TxSys) : Prop where
  finished : t.finished = t.started
  tail : t.drv.ethTxtail.toNat = t.accepted.length - t.started
  active : t.drv.dma2Mm2s.active = false
  sent : t.wire.length = t.started

/-- The state of the queue while a batch is in flight. -/
structure TxBusy (t : TxSys) : Prop where
  inFlight : t.inFlight
  queued : t.accepted.length = t.started
  tail : t.drv.ethTxtail = 0xFF
  pkts : t.drv.ethTxpkts.toNat = t.started - t.finished
  sent : t.wire.length ≤ t.started
  active_iff : t.drv.dma2Mm2s.active = true ↔ t.wire.length < t.started
  currdesc : t.wire.length < t.started →
    t.drv.dma2Mm2s.currdesc = txBd (t.wire.length - t.finished)
  taildesc : t.drv.dma2Mm2s.taildesc = txBd (t.started - t.finished - 1)
  running : t.drv.dma2Mm2s.cr.rs = true

/-- The invariant of the transmit queue. -/
structure TxInv (chunk : ℕ) (s₀ : State) (t : TxSys) : Prop where
  layout : TxLayout chunk t.drv
  phase : TxIdle t ∨ TxBusy t
  started_le : t.started ≤ t.accepted.length
  sent_ge : t.finished ≤ t.wire.length
  bound : t.accepted.length ≤ t.finished + 9
  holds : ∀ i, t.finished + i < t.accepted.length → HoldsFrame t.drv i (t.frame (t.finished + i))
  frame_lt : ∀ i, t.finished + i < t.accepted.length → (t.frame (t.finished + i)).length < chunk
  wire : t.wire = t.accepted.take t.wire.length
  txcount : t.drv.txcount = s₀.txcount + UInt32.ofNat t.finished

namespace TxInv

variable {chunk : ℕ} {s₀ : State} {t : TxSys}

lemma finished_le (h : TxInv chunk s₀ t) : t.finished ≤ t.started := by
  rcases h.phase with hi | hb
  · exact hi.finished.le
  · exact hb.inFlight.le

/-- The lock sentinel says which phase it is. -/
lemma tail_eq_iff (h : TxInv chunk s₀ t) : t.drv.ethTxtail = 0xFF ↔ t.inFlight := by
  have hbound := h.bound
  rcases h.phase with hi | hb
  · have hfin := hi.finished
    have htail := hi.tail
    constructor
    · intro heq
      rw [heq] at htail
      have : (0xFF : UInt8).toNat = 255 := rfl
      omega
    · intro hlt
      exact absurd hlt (by unfold TxSys.inFlight; omega)
  · exact ⟨fun _ => hb.inFlight, fun _ => hb.tail⟩

lemma idle (h : TxInv chunk s₀ t) (hnot : ¬ t.inFlight) : TxIdle t :=
  h.phase.resolve_right fun hb => hnot hb.inFlight

lemma busy (h : TxInv chunk s₀ t) (hin : t.inFlight) : TxBusy t :=
  h.phase.resolve_left fun hi => by
    have := hi.finished
    unfold TxSys.inFlight at hin
    omega

/-! ### Queueing a frame -/

/-- What an accepted frame changes. -/
lemma enque_some (h : TxInv chunk s₀ t) {mem : Frame} (hmem : mem.length ≤ 65535) {b : ℕ}
    (hb : (ethdmaTxsgenque t.drv mem).1 = some b) :
    TxIdle t ∧ t.accepted.length - t.started < 9 ∧ mem.length < chunk ∧
      (ethdmaTxsgenque t.drv mem).2 =
        { t.drv with
          ram := store t.drv.ram (xdma2Mm2sBuffer + chunk * (t.accepted.length - t.started)) mem
          bd := Function.update t.drv.bd (txBd (t.accepted.length - t.started))
            { (t.drv.bd (txBd (t.accepted.length - t.started))).clearStatus with
              control := { txSof := true, txEof := true, bufferLen := BitVec.ofNat 26 mem.length } }
          ethTxtail := t.drv.ethTxtail + 1 } := by
  rcases h.phase with hi | hbusy
  · have hbound := h.bound
    have hfin := hi.finished
    have htail := hi.tail
    have heq := h.layout.enque_eq (by omega) hmem
    rw [htail] at heq
    rw [heq] at hb ⊢
    split_ifs at hb ⊢ with hc
    exact ⟨hi, hc.1, hc.2, rfl⟩
  · rw [enque_of_locked hbusy.tail] at hb
    simp at hb

/-- An accepted frame leaves alone the descriptors and the chunks of all frames that
were accepted before and not yet finished. -/
lemma enque_keeps (h : TxInv chunk s₀ t) {mem : Frame} (hmem : mem.length ≤ 65535) {b : ℕ}
    (hb : (ethdmaTxsgenque t.drv mem).1 = some b) {i : ℕ}
    (hi : t.finished + i < t.accepted.length) :
    (ethdmaTxsgenque t.drv mem).2.bd (txBd i) = t.drv.bd (txBd i) ∧
      ∀ a, (t.drv.bd (txBd i)).buffer ≤ a → a < (t.drv.bd (txBd i)).buffer + chunk →
        (ethdmaTxsgenque t.drv mem).2.ram a = t.drv.ram a := by
  obtain ⟨hidle, hlt, hlen, heq⟩ := h.enque_some hmem hb
  have hfin := hidle.finished
  have hne : i ≠ t.accepted.length - t.started := by omega
  rw [heq]
  refine ⟨Function.update_of_ne (mt txBd_inj.1 hne) _ _, fun a ha ha' => ?_⟩
  rw [h.layout.buffer (by omega)] at ha ha'
  have := chunk_disjoint (c := chunk) xdma2Mm2sBuffer hne
  exact store_of_notMem (by omega)

/-- An accepted frame is in the next free descriptor. -/
lemma enque_holds (h : TxInv chunk s₀ t) {mem : Frame} (hmem : mem.length ≤ 65535) {b : ℕ}
    (hb : (ethdmaTxsgenque t.drv mem).1 = some b) :
    HoldsFrame (ethdmaTxsgenque t.drv mem).2 (t.accepted.length - t.started) mem := by
  obtain ⟨-, hlt, hlen, heq⟩ := h.enque_some hmem hb
  have hchunk := h.layout.chunk_le
  rw [heq]
  constructor
  · simp only [Function.update_self, BitVec.toNat_ofNat]
    exact Nat.mod_eq_of_lt (by omega)
  · have hbuf : (t.drv.bd (txBd (t.accepted.length - t.started))).clearStatus.buffer =
        xdma2Mm2sBuffer + chunk * (t.accepted.length - t.started) := h.layout.buffer (by omega)
    simp only [Function.update_self, hbuf, load_store]

lemma enque (h : TxInv chunk s₀ t) {mem : Frame} (hmem : mem.length ≤ 65535) :
    TxInv chunk s₀ (t.enque mem) := by
  cases hb : (ethdmaTxsgenque t.drv mem).1 with
  | none =>
    have hkeep : t.enque mem = t := by
      simp only [TxSys.enque, hb, enque_rejected hb, Option.isSome_none]
      rfl
    rwa [hkeep]
  | some b =>
    obtain ⟨hidle, hlt, hlen, heq⟩ := h.enque_some hmem hb
    have hfin := hidle.finished
    have htail := hidle.tail
    have hle := h.started_le
    have hsent := hidle.sent
    have hstep : t.enque mem =
        { t with drv := (ethdmaTxsgenque t.drv mem).2, accepted := t.accepted ++ [mem] } := by
      simp only [TxSys.enque, hb, Option.isSome_some, if_true]
    -- the new frame is behind all others
    have hold : ∀ i < t.accepted.length, (t.accepted ++ [mem]).getD i [] = t.frame i :=
      fun i hi => List.getD_append _ _ _ _ hi
    have hnew : (t.accepted ++ [mem]).getD t.accepted.length [] = mem := by simp
    rw [hstep]
    refine
      { layout := ?_
        phase := Or.inl ⟨hfin, ?_, ?_, hsent⟩
        started_le := ?_
        sent_ge := h.sent_ge
        bound := ?_
        holds := fun i hi => ?_
        frame_lt := fun i hi => ?_
        wire := ?_
        txcount := ?_ }
    · rw [heq]
      exact ⟨h.layout.chunk_le, h.layout.ring.update _ _ rfl rfl, h.layout.depth⟩
    · simp only [heq, UInt8.toNat_add, htail, List.length_append, List.length_singleton]
      rw [UInt8.toNat_one, Nat.mod_eq_of_lt (by omega)]
      omega
    · rw [heq]
      exact hidle.active
    · simp only [List.length_append, List.length_singleton]
      omega
    · simp only [List.length_append, List.length_singleton]
      omega
    · simp only [List.length_append, List.length_singleton] at hi
      simp only [TxSys.frame]
      rcases Nat.lt_succ_iff_lt_or_eq.1 hi with hlt' | heq'
      · obtain ⟨hbd, hram⟩ := h.enque_keeps hmem hb hlt'
        rw [hold _ hlt']
        exact (h.holds i hlt').keep (by rw [hbd]) (by rw [hbd]) (h.frame_lt i hlt').le hram
      · obtain rfl : i = t.accepted.length - t.started := by omega
        rw [heq', hnew]
        exact h.enque_holds hmem hb
    · simp only [List.length_append, List.length_singleton] at hi
      simp only [TxSys.frame]
      rcases Nat.lt_succ_iff_lt_or_eq.1 hi with hlt' | heq'
      · rw [hold _ hlt']
        exact h.frame_lt i hlt'
      · rw [heq', hnew]
        exact hlen
    · show t.wire = (t.accepted ++ [mem]).take t.wire.length
      rw [List.take_append_of_le_length (by omega)]
      exact h.wire
    · rw [heq]
      exact h.txcount

/-! ### Handing over a batch -/

lemma flush (h : TxInv chunk s₀ t) : TxInv chunk s₀ t.flush := by
  by_cases hlock : t.drv.ethTxtail = 0 ∨ t.drv.ethTxtail = 0xFF
  · -- nothing is queued, or a batch is in flight already
    rwa [t.flush_of_locked hlock]
  · have hidle := h.idle fun hin => hlock (Or.inr (h.tail_eq_iff.2 hin))
    have hfin := hidle.finished
    have htail := hidle.tail
    have hsent := hidle.sent
    have hpos : 0 < t.accepted.length - t.started := by
      rw [← htail]
      exact Nat.pos_of_ne_zero fun h0 => hlock (Or.inl (UInt8.toNat_inj.1 h0))
    have hdrv : ethdmaTxsgflush t.drv =
        { t.drv with
          ethTxpkts := t.drv.ethTxtail
          ethTxtail := 0xFF
          dma2Mm2s := xsgdmaSeqTrans t.drv.dma2Mm2s (txBd 0)
            (txBd (t.accepted.length - t.started - 1)) } := by
      simp only [ethdmaTxsgflush, if_neg hlock, htail]
    have hstep : t.flush = { t with
        drv := ethdmaTxsgflush t.drv, started := t.accepted.length } := by
      simp [TxSys.flush, hidle.active, hdrv]
    rw [hstep, hdrv]
    refine
      { layout := ⟨h.layout.chunk_le, h.layout.ring, h.layout.depth⟩
        phase := Or.inr ?_
        started_le := le_rfl
        sent_ge := h.sent_ge
        bound := h.bound
        holds := h.holds
        frame_lt := h.frame_lt
        wire := h.wire
        txcount := h.txcount }
    constructor
    · show t.finished < t.accepted.length
      omega
    · rfl
    · rfl
    · show t.drv.ethTxtail.toNat = _
      rw [htail, hfin]
    · show t.wire.length ≤ t.accepted.length
      omega
    · refine iff_of_true rfl ?_
      show t.wire.length < t.accepted.length
      omega
    · intro _
      show txBd 0 = txBd (t.wire.length - t.finished)
      rw [txBd_inj]
      omega
    · show txBd (t.accepted.length - t.started - 1) = txBd (t.accepted.length - t.finished - 1)
      rw [hfin]
    · rfl

/-- A batch just handed over makes the engine active. -/
lemma active_of_flush (h : TxInv chunk s₀ t) (hnot : ¬ t.inFlight) (hin : t.flush.inFlight) :
    t.flush.drv.dma2Mm2s.active = true := by
  have hfin := (h.idle hnot).finished
  have hsent := (h.idle hnot).sent
  rw [(h.flush.busy hin).active_iff]
  have hlt : t.finished < t.flush.started := hin
  show t.wire.length < _
  omega

/-! ### The engine -/

lemma active_busy (h : TxInv chunk s₀ t) (hact : t.drv.dma2Mm2s.active = true) : TxBusy t :=
  h.phase.resolve_left fun hi => by simp [hi.active] at hact

/-- The engine sends the accepted frames one after the other. -/
lemma mm2sFrame_eq (h : TxInv chunk s₀ t) (hact : t.drv.dma2Mm2s.active = true) :
    mm2sFrame t.drv = t.frame t.wire.length := by
  have hbusy := h.active_busy hact
  have hlt := hbusy.active_iff.1 hact
  have hge := h.sent_ge
  have hqueued := hbusy.queued
  have hholds := h.holds (t.wire.length - t.finished) (by omega)
  rw [mm2sFrame, hbusy.currdesc hlt, hholds.bdFrame]
  congr 1
  omega

lemma send (h : TxInv chunk s₀ t) (hact : t.drv.dma2Mm2s.active = true) (ioc : Bool) :
    TxInv chunk s₀ (t.send ioc) := by
  have hbusy := h.active_busy hact
  have hlt := hbusy.active_iff.1 hact
  have hge := h.sent_ge
  have hqueued := hbusy.queued
  have hbound := h.bound
  have hcur := hbusy.currdesc hlt
  have hlen : (t.send ioc).wire.length = t.wire.length + 1 := by simp [TxSys.send]
  -- the engine stops behind the last frame that was handed over
  have htail : t.drv.dma2Mm2s.currdesc = t.drv.dma2Mm2s.taildesc ↔
      t.wire.length + 1 = t.started := by
    rw [hcur, hbusy.taildesc, txBd_inj]
    omega
  refine
    { layout := ⟨h.layout.chunk_le, h.layout.ring.update _ _ rfl rfl, h.layout.depth⟩
      phase := Or.inr ?_
      started_le := h.started_le
      sent_ge := ?_
      bound := h.bound
      holds := fun i hi => ?_
      frame_lt := h.frame_lt
      wire := ?_
      txcount := h.txcount }
  · refine ⟨hbusy.inFlight, hqueued, hbusy.tail, hbusy.pkts, ?_, ?_, ?_, hbusy.taildesc,
      hbusy.running⟩
    · rw [hlen]
      exact hlt
    · rw [hlen]
      simp only [TxSys.send, active_mm2sSend, hact, mm2sAtTail, Bool.true_and, Bool.not_eq_true',
        decide_eq_false_iff_not, htail]
      omega
    · intro hlt'
      have hnext : (t.drv.bd t.drv.dma2Mm2s.currdesc).next =
          txBd (t.wire.length + 1 - t.finished) := by
        rw [hlen] at hlt'
        have hlt'' : t.wire.length + 1 < t.started := hlt'
        rw [hcur, txBd, h.layout.ring.next _ (by omega), txBd]
        congr 1
        omega
      rw [hlen]
      exact hnext
  · rw [hlen]
    exact Nat.le_succ_of_le hge
  · refine (h.holds i hi).keep ?_ ?_ (le_refl _) fun _ _ _ => rfl
    · simp only [TxSys.send, mm2sSend, Function.update_apply]
      split
      · next heq => rw [heq]
      · rfl
    · simp only [TxSys.send, mm2sSend, Function.update_apply]
      split
      · next heq => rw [heq]
      · rfl
  · rw [hlen]
    show t.wire ++ [mm2sFrame t.drv] = t.accepted.take (t.wire.length + 1)
    rw [h.mm2sFrame_eq hact, TxSys.frame, List.getD_eq_getElem _ _ (by omega),
      List.take_succ_eq_append_getElem (by omega), ← h.wire]

/-! ### The handler -/

/-- A handler that sees no completion leaves the queue alone. -/
lemma irq_idle (h : TxInv chunk s₀ t) (hioc : t.drv.dma2Mm2s.sr.iocIrq = false) :
    TxInv chunk s₀ t.irq := by
  have hdrv : onethdmaTxirq t.drv =
      { t.drv with
        dma2Mm2s := (xsgdmaAckirq t.drv.dma2Mm2s).2
        raised := (onethdmaTxirq t.drv).raised
        sgdmaSgls := (onethdmaTxirq t.drv).sgdmaSgls } := by
    simp [onethdmaTxirq, hioc]
  have hstep : t.irq = { t with drv := onethdmaTxirq t.drv } := by
    simp [TxSys.irq, hioc]
  rw [hstep, hdrv]
  refine
    { layout := ⟨h.layout.chunk_le, h.layout.ring, h.layout.depth⟩
      phase := ?_
      started_le := h.started_le
      sent_ge := h.sent_ge
      bound := h.bound
      holds := h.holds
      frame_lt := h.frame_lt
      wire := h.wire
      txcount := h.txcount }
  rcases h.phase with hi | hb
  · exact Or.inl ⟨hi.finished, hi.tail, hi.active, hi.sent⟩
  · exact Or.inr ⟨hb.inFlight, hb.queued, hb.tail, hb.pkts, hb.sent, hb.active_iff, hb.currdesc,
      hb.taildesc, hb.running⟩

/-- A completion that is served after the last descriptor of the batch was sent
releases the queue. -/
lemma irq_done (h : TxInv chunk s₀ t) (hin : t.inFlight)
    (hact : t.drv.dma2Mm2s.active = false) (hioc : t.drv.dma2Mm2s.sr.iocIrq = true) :
    TxInv chunk s₀ t.irq ∧ ¬ t.irq.inFlight := by
  have hbusy := h.busy hin
  have hsent : t.wire.length = t.started := by
    have hle := hbusy.sent
    have hiff := hbusy.active_iff
    rw [hact] at hiff
    have : ¬ t.wire.length < t.started := fun hlt => absurd (hiff.2 hlt) (by decide)
    omega
  have hqueued := hbusy.queued
  have hfin : t.irq.finished = t.started := by simp [TxSys.irq, hioc]
  refine ⟨?_, fun hin' => ?_⟩
  · refine
      { layout := ⟨h.layout.chunk_le, h.layout.ring, h.layout.depth⟩
        phase := Or.inl ⟨hfin, ?_, ?_, hsent⟩
        started_le := h.started_le
        sent_ge := ?_
        bound := ?_
        holds := fun i hi => ?_
        frame_lt := fun i hi => ?_
        wire := h.wire
        txcount := ?_ }
    · show (onethdmaTxirq t.drv).ethTxtail.toNat = t.accepted.length - t.started
      simp only [onethdmaTxirq, xsgdmaAckirq_fst, hioc, if_true, hqueued, Nat.sub_self]
      rfl
    · show (onethdmaTxirq t.drv).dma2Mm2s.active = false
      simp only [onethdmaTxirq, xsgdmaAckirq_fst, hioc, if_true]
      exact hact
    · rw [hfin]
      exact hsent.ge
    · rw [hfin]
      show t.accepted.length ≤ _
      omega
    · rw [hfin] at hi
      exact absurd (show t.started + i < t.accepted.length from hi) (by omega)
    · rw [hfin] at hi
      exact absurd (show t.started + i < t.accepted.length from hi) (by omega)
    · rw [hfin]
      show (onethdmaTxirq t.drv).txcount = _
      -- the size of the batch is what was handed over and not finished
      have hpkts : t.drv.ethTxpkts.toUInt32 = UInt32.ofNat (t.started - t.finished) := by
        rw [← hbusy.pkts, ← UInt8.toNat_toUInt32, UInt32.ofNat_toNat]
      have hle := hbusy.inFlight.le
      simp only [onethdmaTxirq, xsgdmaAckirq_fst, hioc, if_true, h.txcount, hpkts]
      rw [UInt32.add_assoc, ← UInt32.ofNat_add]
      congr 2
      omega
  · have hlt : t.irq.finished < t.irq.started := hin'
    rw [hfin] at hlt
    exact absurd hlt (lt_irrefl _)

/-! ### The start -/

/-- A ring of ten descriptors just set up is an open and empty queue. -/
lemma start {s₁ : State} {allocLen ioBuff : UInt32} {buf : ℕ}
    (hstart : ethdmaTxsgnormal s₀ allocLen ioBuff = .ok (some buf, s₁))
    (hten : allocLen.toNat / ioBuff.toNat = 10) : TxInv ioBuff.toNat s₀ { drv := s₁ } := by
  obtain ⟨hlayout, -, htail, hact, hcount⟩ := ethdmaTxsgnormal_ok hstart hten
  exact
    { layout := hlayout
      phase := Or.inl ⟨rfl, congrArg UInt8.toNat htail, hact, rfl⟩
      started_le := le_rfl
      sent_ge := le_rfl
      bound := Nat.zero_le _
      holds := fun i hi => absurd hi (Nat.not_lt_zero _)
      frame_lt := fun i hi => absurd hi (Nat.not_lt_zero _)
      wire := rfl
      txcount := by simp [hcount] }

end TxInv

end EvtDrivenOs.Xdma
