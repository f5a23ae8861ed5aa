/-
The ethernet receiver of `sys/xdma.c`: the interrupt handler `onethdma_rxirq`
with the queue update `ethdma_queue`, the reader `_ethdma_rxsgcmplt`, the setup
`_ethdma_rxsgcyclic`, and the engine that fills the descriptors.

Positions in the queue are described by how many frames came before them: the
lemmas speak of a head at frame `n` and a tail at frame `r`, which the driver
keeps as `n % 10` and `r % 10`.
-/
import EvtDrivenOs.Lib.Ring
import EvtDrivenOs.Xdma.Basic

namespace EvtDrivenOs.Xdma

open EvtDrivenOs.Lib

/-! ### The code -/

/-- `XDMA2_S2MM_BDRING[i]`. -/
def rxBd (i : ℕ) : ℕ := bdAddr xdma2S2mmBdring i

@[simp] lemma rxBd_inj {i j : ℕ} : rxBd i = rxBd j ↔ i = j := bdAddr_inj

/-- The index after `q`: an increment, compared with the size of the ring. -/
def queueNext (q : UInt8) : UInt8 :=
  let nextQ := q + 1
  if nextQ.toNat = xdma2MaxBds then 0 else nextQ

/-- Advances the producer index `pq` on an event, and the consumer index `cq` with
it when the queue is full.  The first component tells whether an item was lost. -/
def ethdmaQueue (event : Bool) (pq cq : UInt8) : Bool × UInt8 × UInt8 :=
  if !event then (false, pq, cq)
  else
    let nextQ := queueNext pq
    if nextQ = cq then (true, nextQ, queueNext cq) else (false, nextQ, cq)

/-- The receive interrupt handler. -/
def onethdmaRxirq (s : State) : State :=
  let sr := (xsgdmaAckirq s.dma2S2mm).1
  let ioe := sr.errIrq
  let ioc := sr.iocIrq
  let q := ethdmaQueue ioc s.ethRxhead s.ethRxtail
  { s with
    dma2S2mm := (xsgdmaAckirq s.dma2S2mm).2
    rxcount := if ioc then s.rxcount + 1 else s.rxcount
    raised := if ioe then .sigbus :: s.raised else s.raised
    ethRxhead := q.2.1
    ethRxtail := q.2.2
    lostcount := if q.1 then s.lostcount + 1 else s.lostcount
    sgdmaSgls := { s.sgdmaSgls with ethdmaRxbuserr := ioe } }

/-- The number of frames in the receive queue. -/
def ethRxqcount (s : State) : UInt32 :=
  let rxhead := s.ethRxhead.toUInt32
  let rxtail := s.ethRxtail.toUInt32
  (rxhead - rxtail + UInt32.ofNat xdma2MaxBds) % UInt32.ofNat xdma2MaxBds

/-- What a call of `_ethdma_rxsgcmplt` hands to its caller: the buffer it returns,
`*trans_len`, and the bytes copied to `mem`. -/
structure RxFrame where
  bdBuffer : ℕ
  transLen : ℕ
  mem : Frame
deriving DecidableEq, Repr

/-- Hands the descriptor at `bdDesc` back to the engine. -/
def rxsgRelease (s : State) (bdDesc : ℕ) : State :=
  { s with bd := Function.update s.bd bdDesc (s.bd bdDesc).clearStatus }

/-- Moves the tail past the frame at `tail`. -/
def rxsgAdvance (s : State) (tail : UInt8) : State := { s with ethRxtail := queueNext tail }

/-- Takes the oldest frame from the receive queue; `none` stands for `NULL`. -/
def ethdmaRxsgcmplt (s : State) (memLen : UInt32) : Option RxFrame × State :=
  let head := s.ethRxhead
  let tail := s.ethRxtail
  if head = tail then (none, s)
  else
    let bdDesc := rxBd tail.toNat
    if !(s.bd bdDesc).status.cmplt then (none, s)
    else
      let bdBuffer := (s.bd bdDesc).buffer
      let bdTranslen := (s.bd bdDesc).status.transLen.toNat
      if bdTranslen > memLen.toNat then (none, s)
      else
        let s := rxsgRelease s bdDesc
        let mem := load s.ram bdBuffer bdTranslen
        (some ⟨bdBuffer, bdTranslen, mem⟩, rxsgAdvance s tail)

/-- Sets up the receive ring and starts the engine on it. -/
def ethdmaRxsgcyclic (s : State) (allocLen ioBuff : UInt32) :
    Except Fault (Option ℕ × State) :=
  match ringArgsInvalid allocLen ioBuff with
  | .error e => .error e
  | .ok true => .ok (none, s)
  | .ok false =>
    if !xsgdmaSgallowed s.dma2S2mm then .ok (none, s)
    else
      let s := { s with
        ethRxhead := 0
        ethRxtail := 0
        sgdmaSgls := { s.sgdmaSgls with ethdmaRxbuserr := false } }
      let s := { s with
        bd := (xsgdmaRing xdma2S2mmBdring xdma2S2mmBuffer allocLen.toNat ioBuff.toNat s.bd).2 }
      .ok (some xdma2S2mmBuffer,
        { s with dma2S2mm := xsgdmaCyclicTrans s.dma2S2mm xdma2S2mmBdring })

/-! ### The engine -/

/-- What the engine keeps of a frame: as much as the descriptor's buffer takes. -/
def s2mmStored (s : State) (frame : Frame) : Frame :=
  frame.take (s.bd s.dma2S2mm.currdesc).control.bufferLen.toNat

/-- The engine completes its current descriptor with a frame, latches the
completion interrupt and goes on to the next descriptor. -/
def s2mmComplete (s : State) (frame : Frame) : State :=
  let ch := s.dma2S2mm
  let d := s.bd ch.currdesc
  let stored := s2mmStored s frame
  { s with
    ram := store s.ram d.buffer stored
    bd := Function.update s.bd ch.currdesc
      { d with status := { transLen := BitVec.ofNat 26 stored.length, cmplt := true } }
    dma2S2mm := { ch with currdesc := d.next, sr := { ch.sr with iocIrq := true } } }

/-! ### Queue indices -/

/-- The next index is the slot of the next frame. -/
lemma queueNext_toNat {q : UInt8} {n : ℕ} (h : q.toNat = n % 10) :
    (queueNext q).toNat = (n + 1) % 10 := by
  have hlt : q.toNat < 10 := by omega
  have hsucc : (q + 1).toNat = q.toNat + 1 := by
    rw [UInt8.toNat_add, UInt8.toNat_one]
    omega
  rw [← ringNext_mod (by decide) n, ← h]
  simp only [queueNext, ringNext, xdma2MaxBds, hsucc]
  split <;> simp [hsucc]

/-- The queue update, for a queue with its head at frame `n` and its tail at `r`. -/
lemma ethdmaQueue_true {pq cq : UInt8} {n r : ℕ} (hpq : pq.toNat = n % 10)
    (hcq : cq.toNat = r % 10) (hle : r ≤ n) (hbound : n ≤ r + 9) :
    ethdmaQueue true pq cq =
      if n = r + 9 then (true, queueNext pq, queueNext cq) else (false, queueNext pq, cq) := by
  have hfull : queueNext pq = cq ↔ n = r + 9 := by
    rw [← UInt8.toNat_inj, queueNext_toNat hpq, hcq, ring_full_iff hle (by omega)]
    omega
  simp [ethdmaQueue, hfull]

/-- The occupancy computed from the two indices. -/
lemma ethRxqcount_toNat {s : State} {n r : ℕ} (hhead : s.ethRxhead.toNat = n % 10)
    (htail : s.ethRxtail.toNat = r % 10) (hle : r ≤ n) (hbound : n ≤ r + 9) :
    (ethRxqcount s).toNat = n - r := by
  rw [← ring_count (N := 10) hle (by omega), ← hhead, ← htail]
  have hh : s.ethRxhead.toNat < 10 := by omega
  have ht : s.ethRxtail.toNat < 10 := by omega
  have h10 : (UInt32.ofNat xdma2MaxBds).toNat = 10 := rfl
  simp only [ethRxqcount, UInt32.toNat_mod, UInt32.toNat_add, UInt32.toNat_sub,
    UInt8.toNat_toUInt32, h10]
  omega

/-! ### What the handler does to a queue with its head at frame `n` and its tail at `r` -/

section Handler

variable (s : State)

variable {s} {n r : ℕ}

/-- Without a completion the handler leaves queue and counters alone. -/
lemma onethdmaRxirq_of_not_ioc (hioc : s.dma2S2mm.sr.iocIrq = false) :
    (onethdmaRxirq s).ethRxhead = s.ethRxhead ∧ (onethdmaRxirq s).ethRxtail = s.ethRxtail ∧
      (onethdmaRxirq s).rxcount = s.rxcount ∧ (onethdmaRxirq s).lostcount = s.lostcount := by
  simp [onethdmaRxirq, hioc, ethdmaQueue]

/-- With a completion the head moves to the next frame, and a full queue gives up
its oldest frame. -/
lemma onethdmaRxirq_of_ioc (hioc : s.dma2S2mm.sr.iocIrq = true)
    (hhead : s.ethRxhead.toNat = n % 10) (htail : s.ethRxtail.toNat = r % 10) (hle : r ≤ n)
    (hbound : n ≤ r + 9) :
    (onethdmaRxirq s).ethRxhead.toNat = (n + 1) % 10 ∧
      (onethdmaRxirq s).ethRxtail.toNat = (if n = r + 9 then r + 1 else r) % 10 ∧
      (onethdmaRxirq s).rxcount = s.rxcount + 1 ∧
      (onethdmaRxirq s).lostcount = if n = r + 9 then s.lostcount + 1 else s.lostcount := by
  simp only [onethdmaRxirq, xsgdmaAckirq_fst, hioc, ethdmaQueue_true hhead htail hle hbound]
  split <;> simp [queueNext_toNat hhead, queueNext_toNat htail, htail]

end Handler

end EvtDrivenOs.Xdma
