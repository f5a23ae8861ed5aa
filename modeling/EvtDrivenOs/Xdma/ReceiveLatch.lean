/-
The receive queue against an engine that runs ahead of the handler.

The completion interrupt is one latched bit: several completions before the
handler runs are one interrupt, and `onethdma_rxirq` moves the head by one frame
for each interrupt.  Head and engine stay in step exactly as long as the engine
completes no descriptor while the bit is still set; the first completion that
finds it set leaves the head one frame behind.
-/
import EvtDrivenOs.Xdma.ReceiveRun

namespace EvtDrivenOs.Xdma

open EvtDrivenOs.Lib

/-- The steps of the receive side, with completions and the handler apart. -/
inductive RxLatchEvent
  | complete (frame : Frame)
  | irq
  | read (memLen : UInt32)

/-- What an event does. -/
def rxLatchStep (t : RxSys) : RxLatchEvent → RxSys
  | .complete frame => t.complete frame
  | .irq => t.irq
  | .read memLen => t.read memLen

/-- A completion finds the interrupt of the one before acknowledged. -/
def rxLatchOk (t : RxSys) : RxLatchEvent → Prop
  | .complete _ => t.drv.dma2S2mm.sr.iocIrq = false
  | .irq => True
  | .read _ => True

instance (t : RxSys) (e : RxLatchEvent) : Decidable (rxLatchOk t e) :=
  match e with
  | .complete _ => inferInstanceAs (Decidable (_ = false))
  | .irq => isTrue trivial
  | .read _ => isTrue trivial

/-- `k` calls of the reader, with a buffer that takes every frame. -/
def RxSys.drain : ℕ → RxSys → RxSys
  | 0, t => t
  | k + 1, t => drain k (t.read 0xFFFFFFFF)

/-- The software position is the engine's, the counter is the number of frames, and
every frame that was not lost can be read now. -/
structure RxInStep (s₀ : State) (t : RxSys) : Prop where
  /-- The head follows the completions. -/
  head : t.drv.ethRxhead.toNat = t.arrived.length % 10
  /-- Each completion is counted. -/
  rxcount : t.drv.rxcount = s₀.rxcount + UInt32.ofNat t.arrived.length
  /-- Each frame that is not lost can be read. -/
  readable : ∀ i < t.arrived.length, i ∉ t.lost → i ∈ (t.drain 9).delivered.map Prod.fst

namespace RxInv

variable {chunk p : ℕ} {s₀ : State} {held : Option ℕ} {t : RxSys}

/-- Frames are short enough for a buffer of any size that `size_t` can say. -/
lemma frame_fits (h : RxInv chunk s₀ held p t) (i : ℕ) :
    (t.frame i).length ≤ (0xFFFFFFFF : UInt32).toNat := by
  have := h.frame_length_le i
  have := h.chunk_le
  have : (0xFFFFFFFF : UInt32).toNat = 4294967295 := rfl
  omega

/-- Nothing completed, nothing changes. -/
lemma irq_idle (h : RxInv chunk s₀ held 0 t) (hioc : t.drv.dma2S2mm.sr.iocIrq = false) :
    RxInv chunk s₀ held 0 t.irq := by
  obtain ⟨hhead, htail, hrx, hlost⟩ := onethdmaRxirq_of_not_ioc hioc
  have hkeep : t.irq = { t with drv := onethdmaRxirq t.drv } := by
    simp only [RxSys.irq, hlost, if_pos]
  rw [hkeep]
  exact { h with
    pending := fun h0 => absurd h0 (lt_irrefl 0)
    head := hhead ▸ h.head
    tail := htail ▸ h.tail
    rxcount := hrx.trans h.rxcount
    lostcount := hlost.trans h.lostcount }

/-! ### Draining the queue -/

lemma read_next (h : RxInv chunk s₀ none 0 t) :
    (t.read 0xFFFFFFFF).next = min (t.next + 1) t.arrived.length := by
  have hle := h.next_le
  rw [h.read_eq]
  by_cases hlt : t.next < t.arrived.length
  · rw [if_pos ⟨hlt, h.frame_fits _⟩]
    simp only [RxSys.next, List.length_append, List.length_singleton] at hlt ⊢
    omega
  · rw [if_neg (fun hc => hlt hc.1)]
    omega

lemma drain (h : RxInv chunk s₀ none 0 t) (k : ℕ) :
    RxInv chunk s₀ none 0 (t.drain k) ∧ (t.drain k).arrived = t.arrived ∧
      (t.drain k).lost = t.lost ∧ (t.drain k).next = min (t.next + k) t.arrived.length := by
  have hle := h.next_le
  induction k generalizing t with
  | zero => exact ⟨h, rfl, rfl, by simp only [RxSys.drain]; omega⟩
  | succ k ih =>
    obtain ⟨hinv, harr, hlost, hnext⟩ := ih (h.read 0xFFFFFFFF) (h.read 0xFFFFFFFF).next_le
    have harr' : (t.read 0xFFFFFFFF).arrived = t.arrived := rfl
    refine ⟨hinv, harr, hlost, ?_⟩
    rw [RxSys.drain, hnext, h.read_next, harr']
    omega

/-- A frame before the oldest one in the queue was lost or delivered. -/
lemma delivered_of_lt_next (h : RxInv chunk s₀ held p t) {i : ℕ} (hi : i < t.next)
    (hlost : i ∉ t.lost) : i ∈ t.delivered.map Prod.fst := by
  have hremoved := (h.ledger.removed_iff i).2 (by rwa [RxSys.ledger_next])
  exact hremoved.resolve_left hlost

lemma inStep (h : RxInv chunk s₀ none 0 t) : RxInStep s₀ t := by
  refine ⟨h.head, h.rxcount, fun i hi hlost => ?_⟩
  -- at most nine frames wait, and each read takes one
  have hdrain := h.drain 9
  have hbound := h.bound
  generalize t.drain 9 = u at *
  obtain ⟨hinv, -, hlost', hnext⟩ := hdrain
  refine hinv.delivered_of_lt_next ?_ (hlost' ▸ hlost)
  rw [hnext]
  omega

/-! ### Runs -/

/-- A completion that finds the interrupt still latched leaves the head behind. -/
lemma not_inStep_of_pending (h : RxInv chunk s₀ none 1 t) (f : Frame) :
    ¬ RxInStep s₀ (t.complete f).irq := by
  intro hstep
  have hpos := h.pending_le
  obtain ⟨hhead, -⟩ := onethdmaRxirq_of_ioc (s := (t.complete f).drv) rfl h.head h.tail
    h.next_le h.bound
  have hlen : (t.complete f).irq.arrived.length = t.arrived.length + 1 := by simp
  have := hstep.head
  rw [hlen] at this
  have := hhead.symm.trans this
  omega

end RxInv

/-- The interrupt is latched exactly when the handler has a completion to see. -/
def RxLatchInv (chunk : ℕ) (s₀ : State) (t : RxSys) : Prop :=
  RxInv chunk s₀ none 0 t ∧ t.drv.dma2S2mm.sr.iocIrq = false ∨ RxInv chunk s₀ none 1 t

lemma RxInv.read_dma2S2mm {chunk p : ℕ} {s₀ : State} {t : RxSys}
    (h : RxInv chunk s₀ none p t) (memLen : UInt32) :
    (t.read memLen).drv.dma2S2mm = t.drv.dma2S2mm := by
  rw [h.read_eq]
  split <;> rfl

lemma RxLatchInv.step {chunk : ℕ} {s₀ : State} {t : RxSys} (h : RxLatchInv chunk s₀ t)
    {e : RxLatchEvent} (he : rxLatchOk t e) : RxLatchInv chunk s₀ (rxLatchStep t e) := by
  rcases h with ⟨h, hioc⟩ | h
  · cases e with
    | complete frame => exact Or.inr (h.complete frame)
    | irq => exact Or.inl ⟨h.irq_idle hioc, xsgdmaAckirq_snd_iocIrq _⟩
    | read memLen => exact Or.inl ⟨h.read memLen, by rw [rxLatchStep, h.read_dma2S2mm, hioc]⟩
  · cases e with
    | complete frame => exact absurd (h.pending Nat.one_pos) (by rw [he]; decide)
    | irq => exact Or.inl ⟨h.irq, xsgdmaAckirq_snd_iocIrq _⟩
    | read memLen => exact Or.inr (h.read memLen)

/-- **Head and engine over whole runs.**  As long as every completion is acknowledged
before the next one, head and counter are in step whenever no interrupt is pending;
a completion that comes too early takes them out of step. -/
theorem rxLatch_inStep {s₀ s₁ : State} {allocLen ioBuff : UInt32} {buf : ℕ}
    {evs : List RxLatchEvent}
    (hstart : ethdmaRxsgcyclic s₀ allocLen ioBuff = .ok (some buf, s₁))
    (hten : allocLen.toNat / ioBuff.toNat = 10) (hioc : s₁.dma2S2mm.sr.iocIrq = false)
    (hevs : Admissible rxLatchStep rxLatchOk { drv := s₁ } evs) :
    ((run rxLatchStep { drv := s₁ } evs).drv.dma2S2mm.sr.iocIrq = false →
      RxInStep s₀ (run rxLatchStep { drv := s₁ } evs)) ∧
    ((run rxLatchStep { drv := s₁ } evs).drv.dma2S2mm.sr.iocIrq = true →
      ∀ f, ¬ RxInStep s₀ ((run rxLatchStep { drv := s₁ } evs).complete f).irq) := by
  have hstart' : RxLatchInv ioBuff.toNat s₀ { drv := s₁ } :=
    Or.inl ⟨RxInv.start hstart hten, hioc⟩
  rcases hevs.invariant (fun _ _ h he => h.step he) hstart' with ⟨h, hclear⟩ | h
  · exact ⟨fun _ => h.inStep, fun hset => absurd hset (by rw [hclear]; decide)⟩
  · exact ⟨fun hclear => absurd (h.pending Nat.one_pos) (by rw [hclear]; decide),
      fun _ f => h.not_inStep_of_pending f⟩

theorem rxLatch_inStep_boot :
    ((run rxLatchStep { drv := rxBoot }
        [.complete [1, 2], .irq, .complete [3]]).drv.dma2S2mm.sr.iocIrq = false →
      RxInStep {} (run rxLatchStep { drv := rxBoot } [.complete [1, 2], .irq, .complete [3]])) ∧
    ((run rxLatchStep { drv := rxBoot }
        [.complete [1, 2], .irq, .complete [3]]).drv.dma2S2mm.sr.iocIrq = true →
      ∀ f, ¬ RxInStep {} ((run rxLatchStep { drv := rxBoot }
        [.complete [1, 2], .irq, .complete [3]]).complete f).irq) :=
  rxLatch_inStep rxBoot_eq (by decide) (by decide) (by decide)

/-- Two completions and one interrupt: nothing is pending, and the head stands at one. -/
theorem rxLatch_coalesced :
    (run rxLatchStep { drv := rxBoot } [.complete [1], .complete [2], .irq]).drv.dma2S2mm.sr.iocIrq
        = false ∧
      ¬ RxInStep {} (run rxLatchStep { drv := rxBoot } [.complete [1], .complete [2], .irq]) :=
  ⟨by decide, fun h => absurd h.head (by decide)⟩

end EvtDrivenOs.Xdma
