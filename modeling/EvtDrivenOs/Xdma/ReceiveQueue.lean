/-
The receive queue with its history.

`RxSys` is the driver together with what a bystander sees: every frame the engine
stored, in the order of arrival; which of these frames each descriptor holds; and
which frames the handler gave up and the reader returned.  A frame is identified
by its number of arrival.

`RxInv` is the invariant of the queue.  The frames not yet removed lie in the
slots between tail and head, the engine writes the slot right behind them, and
the history is that of a queue that only ever removes its oldest frame.  The last
ten frames are still in memory, and the descriptor of each of them that was not
delivered still reports it.  The parameter `p` counts completions that the
handler has not seen yet, and `held` is the frame, if any, that a reader has
already handed back to the engine while it has not moved the tail yet.
-/
import EvtDrivenOs.Lib.Ledger
import EvtDrivenOs.Xdma.Receive
import Mathlib.Data.List.GetD

namespace EvtDrivenOs.Xdma

open EvtDrivenOs.Lib

/-- The receive side of the driver, with its history. -/
structure RxSys where
  drv : State
  /-- The frames that the engine stored, in the order of arrival. -/
  arrived : List Frame := []
  /-- The number of the frame last stored through the descriptor at an address. -/
  stamp : ℕ → ℕ := fun _ => 0
  /-- The frames counted in `lostcount`. -/
  lost : List ℕ := []
  /-- The frames returned to the reader, with what it was given. -/
  delivered : List (ℕ × RxFrame) := []

namespace RxSys

variable (t : RxSys)

/-- The engine completes its next descriptor with `frame`. -/
def complete (frame : Frame) : RxSys :=
  { t with
    drv := s2mmComplete t.drv frame
    arrived := t.arrived ++ [s2mmStored t.drv frame]
    stamp := Function.update t.stamp t.drv.dma2S2mm.currdesc t.arrived.length }

/-- The handler runs.  A frame that it counts as lost is the one at the tail. -/
def irq : RxSys :=
  { t with
    drv := onethdmaRxirq t.drv
    lost :=
      if (onethdmaRxirq t.drv).lostcount = t.drv.lostcount then t.lost
      else t.lost ++ [t.stamp (rxBd t.drv.ethRxtail.toNat)] }

/-- The engine completes a descriptor and the handler runs. -/
def receive (frame : Frame) : RxSys := (t.complete frame).irq

/-- A call of `_ethdma_rxsgcmplt`. -/
def read (memLen : UInt32) : RxSys :=
  let r := ethdmaRxsgcmplt t.drv memLen
  { t with
    drv := r.2
    delivered := t.delivered ++
      r.1.toList.map fun f => (t.stamp (rxBd t.drv.ethRxtail.toNat), f) }

/-- Frame number `i`. -/
def frame (i : ℕ) : Frame := t.arrived.getD i []

/-- The history as the handler sees it when it has still to see `p` completions. -/
def ledger (p : ℕ) : Ledger := ⟨t.arrived.length - p, t.lost, t.delivered.map Prod.fst⟩

/-- The oldest frame that is neither lost nor delivered. -/
def next : ℕ := t.lost.length + t.delivered.length

/-- The frames neither lost nor delivered. -/
def waiting : List ℕ := (t.ledger 0).waiting

lemma ledger_next (p : ℕ) : (t.ledger p).next = t.next := by
  simp [ledger, Ledger.next, next]

@[simp] lemma complete_arrived (f : Frame) :
    (t.complete f).arrived = t.arrived ++ [s2mmStored t.drv f] := rfl

@[simp] lemma complete_lost (f : Frame) : (t.complete f).lost = t.lost := rfl

@[simp] lemma complete_delivered (f : Frame) : (t.complete f).delivered = t.delivered := rfl

@[simp] lemma complete_next (f : Frame) : (t.complete f).next = t.next := rfl

@[simp] lemma irq_arrived : t.irq.arrived = t.arrived := rfl

@[simp] lemma irq_delivered : t.irq.delivered = t.delivered := rfl

variable {t}

lemma frame_complete_of_lt {i : ℕ} (f : Frame) (h : i < t.arrived.length) :
    (t.complete f).frame i = t.frame i := by
  simp [frame, complete, List.getElem?_append_left h]

lemma frame_complete_self (f : Frame) :
    (t.complete f).frame t.arrived.length = s2mmStored t.drv f := by
  simp [frame, complete]

end RxSys

/-- The invariant of the receive queue. -/
structure RxInv (chunk : ℕ) (s₀ : State) (held : Option ℕ) (p : ℕ) (t : RxSys) : Prop where
  chunk_le : 10 * chunk ≤ 16384
  p_le : p ≤ 1
  pending_le : p ≤ t.arrived.length
  pending : 0 < p → t.drv.dma2S2mm.sr.iocIrq = true
  layout : RingLayout xdma2S2mmBdring xdma2S2mmBuffer chunk 10 t.drv.bd
  chunkLen : ChunkLen xdma2S2mmBdring chunk 10 t.drv.bd
  cursor : t.drv.dma2S2mm.currdesc = rxBd (t.arrived.length % 10)
  head : t.drv.ethRxhead.toNat = (t.arrived.length - p) % 10
  tail : t.drv.ethRxtail.toNat = t.next % 10
  bound : t.arrived.length - p ≤ t.next + 9
  ledger : (t.ledger p).Ok
  rxcount : t.drv.rxcount = s₀.rxcount + UInt32.ofNat (t.arrived.length - p)
  lostcount : t.drv.lostcount = s₀.lostcount + UInt32.ofNat t.lost.length
  stamp : ∀ i < t.arrived.length, t.arrived.length ≤ i + 10 → t.stamp (rxBd (i % 10)) = i
  frame_le : ∀ f ∈ t.arrived, f.length ≤ chunk
  bytes : ∀ i < t.arrived.length, t.arrived.length ≤ i + 10 →
    load t.drv.ram (t.drv.bd (rxBd (i % 10))).buffer (t.frame i).length = t.frame i
  status : ∀ i < t.arrived.length, t.arrived.length ≤ i + 10 →
      (∀ d ∈ t.delivered, d.1 ≠ i) → some i ≠ held →
    (t.drv.bd (rxBd (i % 10))).status.cmplt = true ∧
      (t.drv.bd (rxBd (i % 10))).status.transLen.toNat = (t.frame i).length
  returned : ∀ d ∈ t.delivered, d.2.mem = t.frame d.1 ∧ d.2.transLen = (t.frame d.1).length

namespace RxInv

variable {chunk p : ℕ} {s₀ : State} {held : Option ℕ} {t : RxSys}

lemma next_le (h : RxInv chunk s₀ held p t) : t.next ≤ t.arrived.length - p := by
  have := h.ledger.next_le
  rwa [RxSys.ledger_next] at this

lemma frame_length_le (h : RxInv chunk s₀ held p t) (i : ℕ) : (t.frame i).length ≤ chunk := by
  rcases Nat.lt_or_ge i t.arrived.length with hi | hi
  · rw [RxSys.frame, List.getD_eq_getElem _ _ hi]
    exact h.frame_le _ (List.getElem_mem hi)
  · rw [RxSys.frame, List.getD_eq_default _ _ hi]
    exact Nat.zero_le _

/-- The buffer of the descriptor in slot `i`. -/
lemma buffer (h : RxInv chunk s₀ held p t) (i : ℕ) :
    (t.drv.bd (rxBd (i % 10))).buffer = xdma2S2mmBuffer + chunk * (i % 10) :=
  h.layout.buffer _ (Nat.mod_lt _ (by decide))

/-- A frame that was delivered is a frame that arrived. -/
lemma delivered_lt (h : RxInv chunk s₀ held p t) {d : ℕ × RxFrame} (hd : d ∈ t.delivered) :
    d.1 < t.next := by
  have := h.ledger.lt_of_taken (List.mem_map_of_mem (f := Prod.fst) hd)
  rwa [RxSys.ledger_next] at this

/-! ### The engine -/

/-- What the engine stores through its next descriptor. -/
lemma stored_eq (h : RxInv chunk s₀ held p t) (f : Frame) :
    s2mmStored t.drv f = f.take chunk := by
  rw [s2mmStored, h.cursor]
  simp only [rxBd]
  rw [h.chunkLen _ (Nat.mod_lt _ (by decide))]

lemma complete (h : RxInv chunk s₀ held 0 t) (f : Frame) :
    RxInv chunk s₀ held 1 (t.complete f) := by
  have hbound := h.bound
  have hstored : (s2mmStored t.drv f).length ≤ chunk := by
    rw [h.stored_eq]; exact List.length_take_le _ _
  have hlen : (t.complete f).arrived.length = t.arrived.length + 1 := by simp
  have hnext : (t.complete f).next = t.next := rfl
  have hcur : t.drv.dma2S2mm.currdesc = rxBd (t.arrived.length % 10) := h.cursor
  have hlt : t.arrived.length % 10 < 10 := Nat.mod_lt _ (by decide)
  -- the slot that is written holds none of the last nine frames
  have hfresh : ∀ i < t.arrived.length, t.arrived.length < i + 10 →
      i % 10 ≠ t.arrived.length % 10 := fun i hi hlast => slot_ne hi hlast
  have hbd : ∀ i < t.arrived.length, t.arrived.length < i + 10 →
      (t.complete f).drv.bd (rxBd (i % 10)) = t.drv.bd (rxBd (i % 10)) := by
    intro i hi hlast
    simp only [RxSys.complete, s2mmComplete, hcur]
    rw [Function.update_of_ne (mt rxBd_inj.1 (hfresh i hi hlast))]
  have hself : (t.complete f).drv.bd (rxBd (t.arrived.length % 10)) =
      { t.drv.bd (rxBd (t.arrived.length % 10)) with
        status := { transLen := BitVec.ofNat 26 (s2mmStored t.drv f).length, cmplt := true } } := by
    simp only [RxSys.complete, s2mmComplete, hcur, Function.update_self]
  have hram : (t.complete f).drv.ram =
      store t.drv.ram (xdma2S2mmBuffer + chunk * (t.arrived.length % 10))
        (s2mmStored t.drv f) := by
    simp only [RxSys.complete, s2mmComplete, hcur, h.buffer]
  constructor
  · exact h.chunk_le
  · exact le_refl 1
  · omega
  · intro _
    rfl
  · exact h.layout.update _ _ rfl rfl
  · exact h.chunkLen.update _ _ rfl
  · simp only [RxSys.complete, s2mmComplete, hcur, List.length_append, List.length_singleton]
    rw [rxBd, h.layout.next _ hlt, rxBd, Nat.mod_add_mod]
  · rw [hlen]; exact h.head
  · exact h.tail
  · rw [hlen, hnext]; exact h.bound
  · have := h.ledger
    simpa [RxSys.ledger, RxSys.complete] using this
  · rw [hlen]; exact h.rxcount
  · exact h.lostcount
  · intro i hi hi'
    rw [hlen] at hi hi'
    simp only [RxSys.complete, hcur]
    rcases Nat.lt_succ_iff_lt_or_eq.1 hi with hlt' | rfl
    · rw [Function.update_of_ne (mt rxBd_inj.1 (hfresh i hlt' (by omega)))]
      exact h.stamp i hlt' (by omega)
    · rw [Function.update_self]
  · intro g hg
    rcases List.mem_append.1 hg with hg | hg
    · exact h.frame_le g hg
    · rw [List.mem_singleton.1 hg]
      exact hstored
  · intro i hi hlast
    rw [hlen] at hi hlast
    rcases Nat.lt_succ_iff_lt_or_eq.1 hi with hlt' | rfl
    · have hdisj :=
        chunk_disjoint (c := chunk) xdma2S2mmBuffer (hfresh i hlt' (by omega))
      have := h.frame_length_le i
      rw [RxSys.frame_complete_of_lt f hlt', hbd i hlt' (by omega), hram, h.buffer,
        load_store_of_disjoint (by omega), ← h.buffer]
      exact h.bytes i hlt' (by omega)
    · rw [RxSys.frame_complete_self, hself, hram]
      simp only [h.buffer, load_store]
  · intro i hi hlast hdel hne
    rw [hlen] at hi hlast
    rcases Nat.lt_succ_iff_lt_or_eq.1 hi with hlt' | rfl
    · rw [RxSys.frame_complete_of_lt f hlt', hbd i hlt' (by omega)]
      exact h.status i hlt' (by omega) hdel hne
    · have := h.chunk_le
      rw [RxSys.frame_complete_self, hself]
      refine ⟨rfl, ?_⟩
      rw [BitVec.toNat_ofNat, Nat.mod_eq_of_lt (by omega)]
  · intro d hd
    have := h.delivered_lt hd
    have := h.next_le
    rw [RxSys.frame_complete_of_lt f (by omega)]
    exact h.returned d hd

/-! ### The handler -/

/-- The handler gives up a frame only when nine frames wait and a tenth arrived,
and then it gives up the oldest. -/
lemma irq_lost (h : RxInv chunk s₀ held 1 t) :
    t.irq.lost = if t.arrived.length = t.next + 10 then t.lost ++ [t.next] else t.lost := by
  have hpos := h.pending_le
  have hnext := h.next_le
  obtain ⟨-, -, -, hcount⟩ :=
    onethdmaRxirq_of_ioc (h.pending Nat.one_pos) h.head h.tail hnext h.bound
  simp only [RxSys.irq, hcount]
  by_cases hfull : t.arrived.length = t.next + 10
  · -- the counter of the lost moved, and the tail was at the oldest frame
    have hstamp := h.stamp t.next (by omega) (by omega)
    rw [if_pos (show t.arrived.length - 1 = t.next + 9 by omega), if_neg (by simp), if_pos hfull,
      h.tail, hstamp]
  · rw [if_neg (show ¬ t.arrived.length - 1 = t.next + 9 by omega), if_pos rfl, if_neg hfull]

lemma irq_next (h : RxInv chunk s₀ held 1 t) :
    t.irq.next = if t.arrived.length = t.next + 10 then t.next + 1 else t.next := by
  have hlen : t.irq.next = t.irq.lost.length + t.delivered.length := rfl
  rw [hlen, h.irq_lost]
  split
  · rw [List.length_append, List.length_singleton, RxSys.next]
    omega
  · rfl

/-- To the history, the handler is the arrival of an item at a queue of capacity 9. -/
lemma irq_ledger (h : RxInv chunk s₀ held 1 t) : t.irq.ledger 0 = (t.ledger 1).arrive 9 := by
  have hpos := h.pending_le
  have hnext := h.next_le
  have hfull : (t.ledger 1).arrived - t.next = 9 ↔ t.arrived.length = t.next + 10 := by
    simp only [RxSys.ledger]
    omega
  simp only [Ledger.arrive, RxSys.ledger_next, hfull]
  simp only [RxSys.ledger, h.irq_lost, RxSys.irq_arrived, RxSys.irq_delivered, Nat.sub_zero,
    Nat.sub_add_cancel hpos]
  split <;> rfl

lemma irq (h : RxInv chunk s₀ held 1 t) : RxInv chunk s₀ held 0 t.irq := by
  have hpos := h.pending_le
  have hnext := h.next_le
  have hbound := h.bound
  have hlen : t.irq.arrived.length = t.arrived.length := rfl
  have hstep := h.irq_next
  have hfull : t.arrived.length = t.next + 10 ↔ t.arrived.length - 1 = t.next + 9 := by omega
  obtain ⟨hhead, htail, hrx, hlost⟩ :=
    onethdmaRxirq_of_ioc (h.pending Nat.one_pos) h.head h.tail hnext h.bound
  constructor
  · exact h.chunk_le
  · exact Nat.zero_le 1
  · exact Nat.zero_le _
  · intro h0
    exact absurd h0 (lt_irrefl 0)
  · exact h.layout
  · exact h.chunkLen
  · exact h.cursor
  · rw [hlen, Nat.sub_zero]
    exact hhead.trans (by rw [Nat.sub_add_cancel hpos])
  · rw [hstep]
    simp only [hfull]
    exact htail
  · rw [hlen, hstep]
    split <;> omega
  · rw [h.irq_ledger]
    exact h.ledger.arrive
  · -- every packet is counted, also one that is lost
    have hnum : t.arrived.length = t.arrived.length - 1 + 1 := by omega
    rw [hlen, Nat.sub_zero]
    calc (onethdmaRxirq t.drv).rxcount = s₀.rxcount + UInt32.ofNat (t.arrived.length - 1) + 1 := by
          rw [hrx, h.rxcount]
      _ = s₀.rxcount + UInt32.ofNat (t.arrived.length - 1 + 1) := by
          rw [UInt32.ofNat_add, UInt32.add_assoc]; rfl
      _ = s₀.rxcount + UInt32.ofNat t.arrived.length := by rw [← hnum]
  · rw [h.irq_lost]
    show (onethdmaRxirq t.drv).lostcount = _
    rw [hlost, h.lostcount]
    simp only [← hfull]
    split
    · rw [List.length_append, List.length_singleton, UInt32.ofNat_add, UInt32.add_assoc]
      rfl
    · rfl
  · exact h.stamp
  · exact h.frame_le
  · exact h.bytes
  · exact h.status
  · exact h.returned

/-- A completion followed by the handler. -/
lemma receive (h : RxInv chunk s₀ held 0 t) (f : Frame) :
    RxInv chunk s₀ held 0 (t.receive f) := (h.complete f).irq

lemma receive_lost (h : RxInv chunk s₀ held 0 t) (f : Frame) :
    (t.receive f).lost =
      if t.arrived.length = t.next + 9 then t.lost ++ [t.next] else t.lost := by
  rw [RxSys.receive, (h.complete f).irq_lost]
  simp

lemma receive_next (h : RxInv chunk s₀ held 0 t) (f : Frame) :
    (t.receive f).next = if t.arrived.length = t.next + 9 then t.next + 1 else t.next := by
  rw [RxSys.receive, (h.complete f).irq_next]
  simp

/-! ### The reader -/

/-- The queue looks empty exactly when no frame waits. -/
lemma head_eq_tail_iff (h : RxInv chunk s₀ held p t) :
    t.drv.ethRxhead = t.drv.ethRxtail ↔ t.next = t.arrived.length - p := by
  have := h.bound
  rw [← UInt8.toNat_inj, h.head, h.tail, ring_empty_iff h.next_le (by omega)]
  exact eq_comm

/-- The reader hands the descriptor of frame `x` back to the engine. -/
lemma release (h : RxInv chunk s₀ none p t) {x : ℕ} (hx : x < t.arrived.length)
    (hx' : t.arrived.length ≤ x + 10) :
    RxInv chunk s₀ (some x) p { t with drv := rxsgRelease t.drv (rxBd (x % 10)) } := by
  have hbd : ∀ a, (rxsgRelease t.drv (rxBd (x % 10))).bd a =
      if a = rxBd (x % 10) then (t.drv.bd a).clearStatus else t.drv.bd a := by
    intro a
    simp only [rxsgRelease, Function.update_apply]
    split
    · next ha => rw [ha]
    · rfl
  refine { h with
    layout := h.layout.update _ _ rfl rfl
    chunkLen := h.chunkLen.update _ _ rfl
    bytes := ?_
    status := ?_ }
  · intro i hi hlast
    have := h.bytes i hi hlast
    simp only [hbd]
    split <;> exact this
  · intro i (hi : i < t.arrived.length) (hlast : t.arrived.length ≤ i + 10) hdel hne
    have hix : i ≠ x := fun heq => hne (by rw [heq])
    have hslot : i % 10 ≠ x % 10 := mt (slot_inj (by omega) (by omega)).1 hix
    simp only [hbd, if_neg (mt rxBd_inj.1 hslot)]
    exact h.status i hi hlast hdel (by simp)

/-- The reader moves the tail past the oldest frame. -/
lemma advance (h : RxInv chunk s₀ held p t) (hheld : ∀ x, held = some x → x = t.next)
    {tail : UInt8} (htail : tail.toNat = t.next % 10) (hlt : t.next < t.arrived.length - p)
    {f : RxFrame} (hmem : f.mem = t.frame t.next)
    (hlen : f.transLen = (t.frame t.next).length) :
    RxInv chunk s₀ none p
      { t with drv := rxsgAdvance t.drv tail, delivered := t.delivered ++ [(t.next, f)] } := by
  have hbound := h.bound
  have hstep : RxSys.next { t with
      drv := rxsgAdvance t.drv tail, delivered := t.delivered ++ [(t.next, f)] } = t.next + 1 := by
    simp only [RxSys.next, List.length_append, List.length_singleton]
    omega
  refine { h with
    tail := ?_
    bound := ?_
    ledger := ?_
    status := ?_
    returned := ?_ }
  · rw [hstep]
    exact queueNext_toNat htail
  · rw [hstep]
    show t.arrived.length - p ≤ _
    omega
  · have htake := h.ledger.take
    rw [Ledger.take, if_pos (by rw [RxSys.ledger_next]; exact hlt), RxSys.ledger_next] at htake
    simpa [RxSys.ledger] using htake
  · -- the frame that was held is the one delivered, so no other status is open
    intro i hi hlast hdel _
    have hne : t.next ≠ i := hdel (t.next, f) (by simp)
    refine h.status i hi hlast (fun d hd => hdel d (by simp [hd])) fun heq => ?_
    exact hne (hheld i heq.symm).symm
  · intro d hd
    rcases List.mem_append.1 hd with hd | hd
    · exact h.returned d hd
    · rw [List.mem_singleton.1 hd]
      exact ⟨hmem, hlen⟩

/-- The descriptor of the oldest waiting frame reports it. -/
lemma status_next (h : RxInv chunk s₀ none p t) (hlt : t.next < t.arrived.length) :
    (t.drv.bd (rxBd (t.next % 10))).status.cmplt = true ∧
      (t.drv.bd (rxBd (t.next % 10))).status.transLen.toNat = (t.frame t.next).length := by
  have := h.bound
  have := h.p_le
  exact h.status t.next hlt (by omega) (fun d hd => (h.delivered_lt hd).ne) (by simp)

/-- What the reader returns: nothing when no frame waits, else the oldest frame,
provided that it fits the caller's buffer. -/
lemma ethdmaRxsgcmplt_eq (h : RxInv chunk s₀ none p t) (memLen : UInt32) :
    ethdmaRxsgcmplt t.drv memLen =
      if t.next < t.arrived.length - p ∧ (t.frame t.next).length ≤ memLen.toNat then
        (some ⟨(t.drv.bd (rxBd (t.next % 10))).buffer, (t.frame t.next).length, t.frame t.next⟩,
          rxsgAdvance (rxsgRelease t.drv (rxBd (t.next % 10))) t.drv.ethRxtail)
      else (none, t.drv) := by
  have hle := h.next_le
  simp only [ethdmaRxsgcmplt, h.head_eq_tail_iff, h.tail]
  by_cases hempty : t.next = t.arrived.length - p
  · rw [if_pos hempty, if_neg (by omega)]
  · -- a frame waits, so its descriptor is complete and reports its length
    have hlt : t.next < t.arrived.length - p := by omega
    have hbound := h.bound
    have hp := h.p_le
    obtain ⟨hcmplt, hlen⟩ := h.status_next (by omega)
    have hbytes := h.bytes t.next (by omega) (by omega)
    rw [if_neg hempty, hcmplt, hlen]
    by_cases hfits : (t.frame t.next).length ≤ memLen.toNat
    · rw [if_neg (by simp), if_neg (by omega), if_pos ⟨hlt, hfits⟩]
      simp only [rxsgRelease, hbytes]
    · rw [if_neg (by simp), if_pos (by omega), if_neg (fun hc => hfits hc.2)]

lemma stamp_next (h : RxInv chunk s₀ held p t) (hlt : t.next < t.arrived.length) :
    t.stamp (rxBd t.drv.ethRxtail.toNat) = t.next := by
  have := h.bound
  have := h.p_le
  rw [h.tail, h.stamp t.next hlt (by omega)]

/-- A call of the reader, as a step of the system. -/
lemma read_eq (h : RxInv chunk s₀ none p t) (memLen : UInt32) :
    t.read memLen =
      if t.next < t.arrived.length - p ∧ (t.frame t.next).length ≤ memLen.toNat then
        { t with
          drv := rxsgAdvance (rxsgRelease t.drv (rxBd (t.next % 10))) t.drv.ethRxtail
          delivered := t.delivered ++ [(t.next, ⟨(t.drv.bd (rxBd (t.next % 10))).buffer,
            (t.frame t.next).length, t.frame t.next⟩)] }
      else t := by
  simp only [RxSys.read, h.ethdmaRxsgcmplt_eq]
  split
  · next hc => simp [h.stamp_next (show t.next < t.arrived.length by omega)]
  · simp

lemma read (h : RxInv chunk s₀ none p t) (memLen : UInt32) :
    RxInv chunk s₀ none p (t.read memLen) := by
  rw [h.read_eq]
  split
  · next hc =>
    have hbound := h.bound
    have hp := h.p_le
    have hrel := h.release (x := t.next) (by omega) (by omega)
    exact hrel.advance (by simp [RxSys.next]) h.tail hc.1 rfl rfl
  · exact h

/-! ### The start -/

/-- A ring of ten descriptors just set up is an empty queue. -/
lemma start {s₁ : State} {allocLen ioBuff : UInt32} {buf : ℕ}
    (hstart : ethdmaRxsgcyclic s₀ allocLen ioBuff = .ok (some buf, s₁))
    (hten : allocLen.toNat / ioBuff.toNat = 10) :
    RxInv ioBuff.toNat s₀ none 0 { drv := s₁ } := by
  obtain ⟨hargs, -, rfl⟩ := of_ringSetup hstart
  obtain ⟨hpos, hle, hmax, -⟩ := ringArgs_of_ok hargs
  have hmul := Nat.div_mul_le_self allocLen.toNat ioBuff.toNat
  rw [hten] at hmul
  have hio : xdma2S2mmBuffer + allocLen.toNat ≤ 2 ^ 32 := by
    simp only [xdma2S2mmBuffer]
    omega
  have hlayout := ringLayout_xsgdmaRing xdma2S2mmBdring s₀.bd hio hpos
  have hchunk := chunkLen_xsgdmaRing xdma2S2mmBdring s₀.bd hio hpos (by omega)
  rw [hten] at hlayout hchunk
  constructor
  · omega
  · exact Nat.zero_le 1
  · exact Nat.zero_le _
  · intro h0
    exact absurd h0 (lt_irrefl 0)
  · exact hlayout
  · exact hchunk
  · rfl
  · rfl
  · rfl
  · exact Nat.zero_le _
  · exact Ledger.ok_empty
  · simp
  · simp
  all_goals simp

end RxInv

end EvtDrivenOs.Xdma
