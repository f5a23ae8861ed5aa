/-
The ethernet transmitter of `sys/xdma.c`: `_ethdma_txsgenque`, `_ethdma_txsgflush`,
the interrupt handler `onethdma_txirq`, the setup `_ethdma_txsgnormal`, and the
engine that sends the descriptors.

`eth_txtail` is the number of frames in the queue, and `0xFF` while the queue is
locked because the engine sends it.  The last of the ten descriptors is never
filled: the buffer after it is the first one again, and this lies below.
-/
import EvtDrivenOs.Xdma.Basic
import Mathlib.Tactic.SplitIfs

namespace EvtDrivenOs.Xdma

open EvtDrivenOs.Lib

/-! ### The code -/

/-- `XDMA2_MM2S_BDRING[i]`. -/
def txBd (i : ℕ) : ℕ := bdAddr xdma2Mm2sBdring i

@[simp] lemma txBd_inj {i j : ℕ} : txBd i = txBd j ↔ i = j := bdAddr_inj

/-- Hands the queued frames to the engine and locks the queue. -/
def ethdmaTxsgflush (s : State) : State :=
  let tail := s.ethTxtail
  if tail = 0 ∨ tail = 0xFF then s
  else
    { s with
      ethTxpkts := s.ethTxtail
      ethTxtail := 0xFF
      dma2Mm2s := xsgdmaSeqTrans s.dma2Mm2s (txBd 0) (txBd (tail.toNat - 1)) }

/-- Queues the frame `mem`; returns its buffer, or `none` for `NULL`. -/
def ethdmaTxsgenque (s : State) (mem : Frame) : Option ℕ × State :=
  let tail := s.ethTxtail
  let memLen := mem.length
  if tail = s.ethTxdepth ∨ tail = 0xFF then (none, s)
  else
    let bdDesc := txBd tail.toNat
    let ioBuffer := (s.bd bdDesc).buffer
    let nextIobuffer := (s.bd (s.bd bdDesc).next).buffer
    if (ioBuffer + memLen) % 2 ^ 32 ≥ xdma2S2mmBdring ∨
        nextIobuffer ≤ (ioBuffer + memLen) % 2 ^ 32 then (none, s)
    else
      let control := { txSof := true, txEof := true, bufferLen := BitVec.ofNat 26 memLen }
      (some ioBuffer,
        { s with
          ram := store s.ram ioBuffer mem
          bd := Function.update s.bd bdDesc
            { (s.bd bdDesc).clearStatus with control := control }
          ethTxtail := tail + 1 })

/-- The transmit interrupt handler: any completion releases the whole queue. -/
def onethdmaTxirq (s : State) : State :=
  let sr := (xsgdmaAckirq s.dma2Mm2s).1
  let ch := (xsgdmaAckirq s.dma2Mm2s).2
  let ioc := sr.iocIrq
  let ioe := sr.errIrq
  { s with
    dma2Mm2s := if ioc then { ch with cr := { ch.cr with rs := false } } else ch
    txcount := if ioc then s.txcount + s.ethTxpkts.toUInt32 else s.txcount
    ethTxtail := if ioc then 0 else s.ethTxtail
    ethTxpkts := if ioc then 0 else s.ethTxpkts
    raised := if ioe then .sigbus :: s.raised else s.raised
    sgdmaSgls := { s.sgdmaSgls with ethdmaTxbuserr := ioe } }

/-- Sets up the transmit ring; the engine is started by the first flush. -/
def ethdmaTxsgnormal (s : State) (allocLen ioBuff : UInt32) :
    Except Fault (Option ℕ × State) :=
  match ringArgsInvalid allocLen ioBuff with
  | .error e => .error e
  | .ok true => .ok (none, s)
  | .ok false =>
    if !xsgdmaSgallowed s.dma2Mm2s then .ok (none, s)
    else
      let r := xsgdmaRing xdma2Mm2sBdring xdma2Mm2sBuffer allocLen.toNat ioBuff.toNat s.bd
      .ok (some xdma2Mm2sBuffer,
        { s with
          bd := r.2
          ethTxdepth := UInt8.ofNat r.1
          ethTxtail := 0
          sgdmaSgls := { s.sgdmaSgls with ethdmaTxbuserr := false } })

/-! ### The engine -/

/-- The frame that the engine sends next. -/
def mm2sFrame (s : State) : Frame := bdFrame s s.dma2Mm2s.currdesc

/-- The engine has sent its current descriptor.  It goes on to the next one, or idles
after the tail descriptor; `ioc` tells whether it raises the completion interrupt. -/
def mm2sSend (s : State) (ioc : Bool) : State :=
  let ch := s.dma2Mm2s
  let d := s.bd ch.currdesc
  { s with
    bd := Function.update s.bd ch.currdesc
      { d with status := { transLen := d.control.bufferLen, cmplt := true } }
    dma2Mm2s :=
      { ch with
        currdesc := d.next
        sr := { ch.sr with
          iocIrq := ch.sr.iocIrq || ioc
          idle := ch.sr.idle || decide (ch.currdesc = ch.taildesc) } } }

/-- The engine is at the last descriptor of its batch. -/
def mm2sAtTail (s : State) : Bool := decide (s.dma2Mm2s.currdesc = s.dma2Mm2s.taildesc)

/-- The engine stays active until it has sent the last descriptor. -/
@[simp] lemma active_mm2sSend (s : State) (ioc : Bool) :
    (mm2sSend s ioc).dma2Mm2s.active = (s.dma2Mm2s.active && !mm2sAtTail s) := by
  simp only [mm2sSend, XsgdmaCh.active, mm2sAtTail, Bool.not_or, Bool.and_assoc]

/-! ### Frames in the buffers -/

/-- Descriptor `i` describes the frame `f` in its own chunk. -/
def HoldsFrame (s : State) (i : ℕ) (f : Frame) : Prop :=
  (s.bd (txBd i)).control.bufferLen.toNat = f.length ∧
    load s.ram (s.bd (txBd i)).buffer f.length = f

lemma HoldsFrame.bdFrame {s : State} {i : ℕ} {f : Frame} (h : HoldsFrame s i f) :
    bdFrame s (txBd i) = f := by
  rw [Xdma.bdFrame, h.1, h.2]

/-- A frame stays where it is when its descriptor keeps buffer and length, and its
chunk keeps its bytes. -/
lemma HoldsFrame.keep {s s' : State} {i n : ℕ} {f : Frame} (h : HoldsFrame s i f)
    (hcontrol : (s'.bd (txBd i)).control = (s.bd (txBd i)).control)
    (hbuffer : (s'.bd (txBd i)).buffer = (s.bd (txBd i)).buffer) (hlen : f.length ≤ n)
    (hram : ∀ a, (s.bd (txBd i)).buffer ≤ a → a < (s.bd (txBd i)).buffer + n →
      s'.ram a = s.ram a) : HoldsFrame s' i f := by
  have hload : load s'.ram (s.bd (txBd i)).buffer f.length =
      load s.ram (s.bd (txBd i)).buffer f.length :=
    load_congr fun a ha ha' => hram a ha (by omega)
  exact ⟨by rw [hcontrol, h.1], by rw [hbuffer, hload, h.2]⟩

/-- The layout of the transmit ring: ten descriptors over chunks that fit their area. -/
structure TxLayout (chunk : ℕ) (s : State) : Prop where
  chunk_le : 10 * chunk ≤ 16384
  ring : RingLayout xdma2Mm2sBdring xdma2Mm2sBuffer chunk 10 s.bd
  depth : s.ethTxdepth = 10

namespace TxLayout

variable {chunk i : ℕ} {s : State}

lemma buffer (h : TxLayout chunk s) (hi : i < 10) :
    (s.bd (txBd i)).buffer = xdma2Mm2sBuffer + chunk * i := h.ring.buffer i hi

/-- When a frame is accepted: the queue is not locked, one of the first nine
descriptors is free, and the frame is shorter than its chunk. -/
lemma enque_eq (h : TxLayout chunk s) (htail : s.ethTxtail.toNat ≤ 9) {mem : Frame}
    (hmem : mem.length ≤ 65535) :
    ethdmaTxsgenque s mem =
      if s.ethTxtail.toNat < 9 ∧ mem.length < chunk then
        (some (xdma2Mm2sBuffer + chunk * s.ethTxtail.toNat),
          { s with
            ram := store s.ram (xdma2Mm2sBuffer + chunk * s.ethTxtail.toNat) mem
            bd := Function.update s.bd (txBd s.ethTxtail.toNat)
              { (s.bd (txBd s.ethTxtail.toNat)).clearStatus with
                control :=
                  { txSof := true, txEof := true, bufferLen := BitVec.ofNat 26 mem.length } }
            ethTxtail := s.ethTxtail + 1 })
      else (none, s) := by
  have hchunk := h.chunk_le
  have hlock : ¬ (s.ethTxtail = s.ethTxdepth ∨ s.ethTxtail = 0xFF) := by
    rw [h.depth]
    rintro (heq | heq)
    · rw [heq] at htail
      exact absurd htail (by decide)
    · rw [heq] at htail
      exact absurd htail (by decide)
  have hnext : (s.bd (s.bd (txBd s.ethTxtail.toNat)).next).buffer =
      xdma2Mm2sBuffer + chunk * ((s.ethTxtail.toNat + 1) % 10) := by
    rw [txBd, h.ring.next _ (by omega)]
    exact h.ring.buffer _ (by omega)
  have hmul : chunk * s.ethTxtail.toNat ≤ chunk * 9 := Nat.mul_le_mul_left _ htail
  simp only [ethdmaTxsgenque, if_neg hlock, hnext, h.buffer (show s.ethTxtail.toNat < 10 by omega)]
  have hmod : (xdma2Mm2sBuffer + chunk * s.ethTxtail.toNat + mem.length) % 2 ^ 32 =
      xdma2Mm2sBuffer + chunk * s.ethTxtail.toNat + mem.length := by
    apply Nat.mod_eq_of_lt
    simp only [xdma2Mm2sBuffer]
    omega
  rw [hmod]
  by_cases hlast : s.ethTxtail.toNat = 9
  · -- the chunk after the last one is the first
    rw [hlast, if_pos (Or.inr (by simp; omega)), if_neg (by omega)]
  · have hmul' : chunk * (s.ethTxtail.toNat + 1) = chunk * s.ethTxtail.toNat + chunk := by ring
    have hmul'' : chunk * (s.ethTxtail.toNat + 1) ≤ chunk * 9 :=
      Nat.mul_le_mul_left _ (by omega)
    rw [Nat.mod_eq_of_lt (show s.ethTxtail.toNat + 1 < 10 by omega), hmul']
    by_cases hlen : mem.length < chunk
    · rw [if_neg, if_pos ⟨by omega, hlen⟩]
      simp only [xdma2Mm2sBuffer, xdma2S2mmBdring]
      omega
    · rw [if_pos (Or.inr (by omega)), if_neg (fun hc => hlen hc.2)]

end TxLayout

/-- A ring just set up: its layout over the chunks, an open and empty queue, and an engine
at rest. -/
lemma ethdmaTxsgnormal_ring {s₀ s₁ : State} {allocLen ioBuff : UInt32} {buf : ℕ}
    (hstart : ethdmaTxsgnormal s₀ allocLen ioBuff = .ok (some buf, s₁)) :
    (0 < ioBuff.toNat ∧ ioBuff.toNat ≤ allocLen.toNat ∧ allocLen.toNat ≤ 16384 ∧
        allocLen.toNat % ioBuff.toNat = 0) ∧
      RingLayout xdma2Mm2sBdring xdma2Mm2sBuffer ioBuff.toNat (allocLen.toNat / ioBuff.toNat)
        s₁.bd ∧
      ChunkLen xdma2Mm2sBdring ioBuff.toNat (allocLen.toNat / ioBuff.toNat) s₁.bd ∧
      s₁.ethTxdepth = UInt8.ofNat (allocLen.toNat / ioBuff.toNat) ∧
      s₁.ethTxtail = 0 ∧ s₁.dma2Mm2s.active = false ∧ s₁.txcount = s₀.txcount := by
  obtain ⟨hargs, hallowed, rfl⟩ := of_ringSetup hstart
  obtain ⟨hpos, hle, hmax, hmod⟩ := ringArgs_of_ok hargs
  have hio : xdma2Mm2sBuffer + allocLen.toNat ≤ 2 ^ 32 := by
    simp only [xdma2Mm2sBuffer]
    omega
  exact ⟨⟨hpos, hle, hmax, hmod⟩, ringLayout_xsgdmaRing xdma2Mm2sBdring s₀.bd hio hpos,
    chunkLen_xsgdmaRing xdma2Mm2sBdring s₀.bd hio hpos (by omega), rfl, rfl,
    not_active_of_sgallowed hallowed, rfl⟩

/-- A ring of ten descriptors just set up. -/
lemma ethdmaTxsgnormal_ok {s₀ s₁ : State} {allocLen ioBuff : UInt32} {buf : ℕ}
    (hstart : ethdmaTxsgnormal s₀ allocLen ioBuff = .ok (some buf, s₁))
    (hten : allocLen.toNat / ioBuff.toNat = 10) :
    TxLayout ioBuff.toNat s₁ ∧ ChunkLen xdma2Mm2sBdring ioBuff.toNat 10 s₁.bd ∧
      s₁.ethTxtail = 0 ∧ s₁.dma2Mm2s.active = false ∧ s₁.txcount = s₀.txcount := by
  obtain ⟨⟨-, -, hmax, -⟩, hlayout, hchunk, hdepth, hrest⟩ := ethdmaTxsgnormal_ring hstart
  have hmul := Nat.div_mul_le_self allocLen.toNat ioBuff.toNat
  rw [hten] at hmul hlayout hchunk hdepth
  exact ⟨⟨by omega, hlayout, hdepth⟩, hchunk, hrest⟩

/-- A locked queue accepts nothing. -/
lemma enque_of_locked {s : State} (h : s.ethTxtail = 0xFF) (mem : Frame) :
    ethdmaTxsgenque s mem = (none, s) := by
  simp [ethdmaTxsgenque, h]

/-- A rejected frame changes nothing. -/
lemma enque_rejected {s : State} {mem : Frame} (h : (ethdmaTxsgenque s mem).1 = none) :
    (ethdmaTxsgenque s mem).2 = s := by
  simp only [ethdmaTxsgenque] at h ⊢
  split
  · rfl
  · next hlock =>
    split
    · rfl
    · next hfit =>
      rw [if_neg hlock, if_neg hfit] at h
      exact absurd h (by simp)

lemma enque_none {s s' : State} {mem : Frame} (h : ethdmaTxsgenque s mem = (none, s')) :
    s' = s := by
  have hkeep : (ethdmaTxsgenque s mem).2 = s := enque_rejected (by rw [h])
  rwa [h] at hkeep

end EvtDrivenOs.Xdma
