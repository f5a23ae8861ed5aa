/-
The data of the DMA driver `sys/xdma.c`: the memory map, the registers of the
scatter-gather channels, the buffer descriptors and the static variables.

Memory is kept in two parts that the address map keeps apart: the descriptors,
by the address at which each of them starts, and the bytes of the I/O buffers.
Both are coherent: the driver's cache maintenance calls are not modelled.
An address is a natural number; where the code computes with addresses in
`uintptr_t`, the sum is taken modulo `2 ^ 32`.
-/
import EvtDrivenOs.Basic
import EvtDrivenOs.Lib.Cells
import Mathlib.Logic.Function.Basic
import Mathlib.Tactic.Ring

namespace EvtDrivenOs.Xdma

open EvtDrivenOs.Lib

/-- The bytes of an ethernet frame. -/
abbrev Frame := List UInt8

/-! ### The memory map -/

/-- The number of descriptors of the sound. -/
def xdma1MaxBds : ℕ := 2

/-- The number of descriptors of each ring of the network. -/
def xdma2MaxBds : ℕ := 10

/-- `XDMA_DATA_ALIGN`: the low address bits that a DMA buffer length must not have. -/
def xdmaDataAlign : UInt32 := 3

/-- `XDMA_IO_BUFFER_SIZE`: 16 KiB for each of the buffer areas. -/
def xdmaIoBufferSize : UInt32 := 16384

/-- The buffer of the sound. -/
def xdma1IoBuffer : ℕ := 0x80004000

/-- The buffers that frames are received in. -/
def xdma2S2mmBuffer : ℕ := 0x80008000

/-- The buffers that frames are sent from. -/
def xdma2Mm2sBuffer : ℕ := 0x8000C000

/-- The ring of the sound. -/
def xdma1Mm2sBdring : ℕ := 0x80010000

/-- The ring of the receive side. -/
def xdma2S2mmBdring : ℕ := 0x80010080

/-- The ring of the transmit side. -/
def xdma2Mm2sBdring : ℕ := 0x80010300

/-! ### Buffer descriptors -/

/-- The control word of a descriptor. -/
structure BdControl where
  bufferLen : BitVec 26 := 0
  txEof : Bool := false
  txSof : Bool := false
deriving DecidableEq, Repr, Inhabited

/-- The status word of a descriptor. -/
structure BdStatus where
  transLen : BitVec 26 := 0
  dmaIntErr : Bool := false
  dmaIntSlvErr : Bool := false
  dmaDecErr : Bool := false
  cmplt : Bool := false
deriving DecidableEq, Repr, Inhabited

/-- A scatter-gather descriptor, `xsgdmadesc_t`. -/
structure XsgdmaDesc where
  next : ℕ := 0
  buffer : ℕ := 0
  control : BdControl := {}
  status : BdStatus := {}
deriving DecidableEq, Repr, Inhabited

/-- The status as the driver leaves it before it hands a descriptor back: the
transfer length, the completion flag and the error flags are all cleared. -/
def XsgdmaDesc.clearStatus (d : XsgdmaDesc) : XsgdmaDesc := { d with status := {} }

/-- Descriptor `i` of the array that starts at `ring`; a descriptor takes 64 bytes. -/
def bdAddr (ring : ℕ) (i : ℕ) : ℕ := ring + 64 * i

@[simp] lemma bdAddr_zero (ring : ℕ) : bdAddr ring 0 = ring := rfl

@[simp] lemma bdAddr_inj {ring : ℕ} {i j : ℕ} : bdAddr ring i = bdAddr ring j ↔ i = j := by
  simp only [bdAddr]
  omega

/-! ### Channel registers -/

/-- The control register of a channel, `xdmacr_t`. -/
structure Xdmacr where
  rs : Bool := false
  reset : Bool := false
  cyclicBdEnable : Bool := false
  iocIrqEn : Bool := false
  errIrqEn : Bool := false
  irqThrshld : UInt8 := 0
deriving DecidableEq, Repr, Inhabited

/-- The status register of a channel, `xdmasr_t`. -/
structure Xdmasr where
  halted : Bool := true
  idle : Bool := false
  sgIncld : Bool := true
  iocIrq : Bool := false
  dlyIrq : Bool := false
  errIrq : Bool := false
deriving DecidableEq, Repr, Inhabited

/-- Writing the status register clears those interrupt bits that are written as one. -/
def Xdmasr.write (sr v : Xdmasr) : Xdmasr :=
  { sr with
    iocIrq := sr.iocIrq && !v.iocIrq
    dlyIrq := sr.dlyIrq && !v.dlyIrq
    errIrq := sr.errIrq && !v.errIrq }

/-- A scatter-gather channel, `xsgdma_ch_t`. -/
structure XsgdmaCh where
  cr : Xdmacr := {}
  sr : Xdmasr := {}
  currdesc : ℕ := 0
  taildesc : ℕ := 0
deriving DecidableEq, Repr, Inhabited

/-! ### The driver's state -/

/-- The flags for the main context, `xsgdma_sigset_t`. -/
structure XsgdmaSigset where
  ethdmaTxbuserr : Bool := false
  ethdmaRxbuserr : Bool := false
  sbdmaCmplt : Bool := false
  sbdmaBuserr : Bool := false
deriving DecidableEq, Repr, Inhabited

/-- Registers, memory and static variables of `xdma.c`. -/
structure State where
  dma1Mm2s : XsgdmaCh := {}
  dma2Mm2s : XsgdmaCh := {}
  dma2S2mm : XsgdmaCh := {}
  /-- The descriptors in memory. -/
  bd : ℕ → XsgdmaDesc := fun _ => {}
  /-- The bytes in memory. -/
  ram : ℕ → UInt8 := fun _ => 0
  sgdmaSgls : XsgdmaSigset := {}
  rxcount : UInt32 := 0
  txcount : UInt32 := 0
  lostcount : UInt32 := 0
  ethRxtail : UInt8 := 0
  ethRxhead : UInt8 := 0
  ethTxtail : UInt8 := 0
  ethTxpkts : UInt8 := 0
  ethTxdepth : UInt8 := 0
  /-- The signals raised so far, the latest first. -/
  raised : List Signal := []
deriving Inhabited

/-- The bytes that the descriptor at `bdDesc` describes. -/
def bdFrame (s : State) (bdDesc : ℕ) : Frame :=
  load s.ram (s.bd bdDesc).buffer (s.bd bdDesc).control.bufferLen.toNat

/-! ### Operations on a channel -/

/-- The channel is in scatter-gather mode and not running. -/
def xsgdmaSgallowed (ch : XsgdmaCh) : Bool :=
  ch.sr.sgIncld && (ch.sr.halted || ch.sr.idle)

/-- Reads the status register and writes back what was read. -/
def xsgdmaAckirq (ch : XsgdmaCh) : Xdmasr × XsgdmaCh :=
  (ch.sr, { ch with sr := ch.sr.write ch.sr })

/-- The hardware's answer to a write of the tail descriptor: the channel runs. -/
def XsgdmaCh.start (ch : XsgdmaCh) (taildesc : ℕ) : XsgdmaCh :=
  { ch with taildesc := taildesc, sr := { ch.sr with halted := false, idle := false } }

/-- Transfer of the descriptors from `head` to `tail`. -/
def xsgdmaSeqTrans (ch : XsgdmaCh) (head tail : ℕ) : XsgdmaCh :=
  XsgdmaCh.start
    { ch with currdesc := head, cr := { rs := true, errIrqEn := true, iocIrqEn := true } } tail

/-- Cyclic transfer of the ring that starts at `head`. -/
def xsgdmaCyclicTrans (ch : XsgdmaCh) (head : ℕ) : XsgdmaCh :=
  XsgdmaCh.start
    { ch with
      currdesc := head
      cr := { rs := true, iocIrqEn := true, errIrqEn := true, cyclicBdEnable := true } } 0x50

/-- A soft reset: the registers of the channel take their reset values. -/
def xsgdmaEngreset (ch : XsgdmaCh) : XsgdmaCh := { sr := { sgIncld := ch.sr.sgIncld } }

/-- Stops the engine: the write of the control register sets its reset bit as well, and
the hardware then reports the channel as halted. -/
def xsgdmaEngstop (ch : XsgdmaCh) : XsgdmaCh := xsgdmaEngreset ch

/-- A transfer is in progress on the channel. -/
def XsgdmaCh.active (ch : XsgdmaCh) : Bool := !ch.sr.halted && !ch.sr.idle

@[simp] lemma xsgdmaAckirq_fst (ch : XsgdmaCh) : (xsgdmaAckirq ch).1 = ch.sr := rfl

/-- Acknowledging clears the completion interrupt. -/
@[simp] lemma xsgdmaAckirq_snd_iocIrq (ch : XsgdmaCh) :
    (xsgdmaAckirq ch).2.sr.iocIrq = false := by
  simp [xsgdmaAckirq, Xdmasr.write]

@[simp] lemma active_xsgdmaSeqTrans (ch : XsgdmaCh) (head tail : ℕ) :
    (xsgdmaSeqTrans ch head tail).active = true := rfl

/-- A channel that may be set up is not running. -/
lemma not_active_of_sgallowed {ch : XsgdmaCh} (h : xsgdmaSgallowed ch = true) :
    ch.active = false := by
  simp only [xsgdmaSgallowed, XsgdmaCh.active, Bool.and_eq_true, Bool.or_eq_true] at h ⊢
  rcases h.2 with h | h <;> simp [h]

/-! ### Setting up a ring of descriptors -/

/-- The argument check shared by the functions that set up a ring: alignment,
size, and a whole number of chunks. -/
def ringArgsInvalid (allocLen ioBuff : UInt32) : Except Fault Bool :=
  if ioBuff &&& xdmaDataAlign ≠ 0 ∨ allocLen > xdmaIoBufferSize ∨ allocLen < ioBuff then
    .ok true
  else if ioBuff = 0 then .error .divByZero
  else .ok (allocLen % ioBuff ≠ 0)

/-- The loop of `xsgdma_ring` over the remaining `n` descriptors; `saAddr` is the
buffer address and `bdDesc` the descriptor of the next round. -/
def xsgdmaRingLoop (chunk : ℕ) :
    ℕ → ℕ → ℕ → (ℕ → XsgdmaDesc) → ℕ × (ℕ → XsgdmaDesc)
  | 0, _, bdDesc, bd => (bdDesc, bd)
  | n + 1, saAddr, bdDesc, bd =>
    xsgdmaRingLoop chunk n ((saAddr + chunk) % 2 ^ 32) (bdDesc + 64)
      (Function.update bd bdDesc
        { bd bdDesc with
          control := { txSof := true, txEof := true, bufferLen := BitVec.ofNat 26 chunk }
          next := bdDesc + 64
          buffer := saAddr })

/-- Clears `len / chunk` descriptors at `head` and links them into a ring over the
chunks of the buffer at `ioHead`; returns their number. -/
def xsgdmaRing (head ioHead : ℕ) (len chunk : ℕ) (bd : ℕ → XsgdmaDesc) :
    ℕ × (ℕ → XsgdmaDesc) :=
  let bdCount := len / chunk
  let bdMemsize := bdCount * 64
  let bd := fun a => if head ≤ a ∧ a < head + bdMemsize then {} else bd a
  let r := xsgdmaRingLoop chunk bdCount ioHead head bd
  -- the loop leaves one descriptor past the last, whose link closes the ring
  let bdDesc := r.1 - 64
  (bdCount, Function.update r.2 bdDesc { r.2 bdDesc with next := head })

lemma xsgdmaRingLoop_fst (chunk n : ℕ) (saAddr bdDesc : ℕ) (bd : ℕ → XsgdmaDesc) :
    (xsgdmaRingLoop chunk n saAddr bdDesc bd).1 = bdDesc + 64 * n := by
  induction n generalizing saAddr bdDesc bd with
  | zero => rfl
  | succ n ih => rw [xsgdmaRingLoop, ih]; omega

/-- The loop leaves alone what lies outside its descriptors. -/
lemma xsgdmaRingLoop_of_notMem {chunk n : ℕ} {saAddr bdDesc a : ℕ} {bd : ℕ → XsgdmaDesc}
    (h : a < bdDesc ∨ bdDesc + 64 * n ≤ a) :
    (xsgdmaRingLoop chunk n saAddr bdDesc bd).2 a = bd a := by
  induction n generalizing saAddr bdDesc bd with
  | zero => rfl
  | succ n ih =>
    rw [xsgdmaRingLoop, ih (by omega), Function.update_of_ne (by omega)]

/-- The descriptor written in round `i`. -/
lemma xsgdmaRingLoop_bd {chunk n i : ℕ} {saAddr bdDesc : ℕ} {bd : ℕ → XsgdmaDesc}
    (hi : i < n) (hsa : saAddr + chunk * i < 2 ^ 32) :
    (xsgdmaRingLoop chunk n saAddr bdDesc bd).2 (bdAddr bdDesc i) =
      { next := bdAddr bdDesc (i + 1)
        buffer := saAddr + chunk * i
        control := { txSof := true, txEof := true, bufferLen := BitVec.ofNat 26 chunk }
        status := (bd (bdAddr bdDesc i)).status } := by
  induction n generalizing saAddr bdDesc bd i with
  | zero => omega
  | succ n ih =>
    rw [xsgdmaRingLoop]
    cases i with
    | zero =>
      rw [xsgdmaRingLoop_of_notMem (by simp [bdAddr])]
      simp [bdAddr]
    | succ i =>
      have hstep : chunk * (i + 1) = chunk + chunk * i := by ring
      have hmod : (saAddr + chunk) % 2 ^ 32 = saAddr + chunk := Nat.mod_eq_of_lt (by omega)
      have haddr : bdAddr bdDesc (i + 1) = bdAddr (bdDesc + 64) i := by simp [bdAddr]; omega
      have hne : bdAddr (bdDesc + 64) i ≠ bdDesc := by simp [bdAddr]; omega
      rw [haddr, ih (by omega) (by omega), Function.update_of_ne hne, hmod, hstep]
      have hnext : bdAddr (bdDesc + 64) (i + 1) = bdAddr bdDesc (i + 1 + 1) := by
        simp [bdAddr]; omega
      rw [hnext, Nat.add_assoc saAddr]

/-- What `xsgdma_ring` leaves in its descriptors: one cycle through consecutive
chunks, every descriptor with its own chunk and a clear status. -/
lemma xsgdmaRing_bd {head ioHead : ℕ} {len chunk i : ℕ} {bd : ℕ → XsgdmaDesc}
    (hi : i < len / chunk) (hio : ioHead + len ≤ 2 ^ 32) (hchunk : 0 < chunk) :
    (xsgdmaRing head ioHead len chunk bd).2 (bdAddr head i) =
      { next := bdAddr head ((i + 1) % (len / chunk))
        buffer := ioHead + chunk * i
        control := { txSof := true, txEof := true, bufferLen := BitVec.ofNat 26 chunk }
        status := {} } := by
  have hlen : chunk * (len / chunk) ≤ len := Nat.mul_div_le len chunk
  have hfits := @chunk_le chunk i (len / chunk) ioHead hi
  have hsa : ioHead + chunk * i < 2 ^ 32 := by omega
  simp only [xsgdmaRing, xsgdmaRingLoop_fst]
  by_cases hlast : i + 1 = len / chunk
  · have hdesc : bdAddr head i = head + 64 * (len / chunk) - 64 := by simp [bdAddr]; omega
    have hin : head ≤ bdAddr head i ∧ bdAddr head i < head + len / chunk * 64 := by
      simp only [bdAddr]; omega
    rw [← hdesc, Function.update_self, xsgdmaRingLoop_bd hi hsa, hlast, Nat.mod_self, if_pos hin,
      bdAddr_zero]
  · have hne : bdAddr head i ≠ head + 64 * (len / chunk) - 64 := by simp [bdAddr]; omega
    have hin : head ≤ bdAddr head i ∧ bdAddr head i < head + len / chunk * 64 := by
      simp only [bdAddr]; omega
    rw [Function.update_of_ne hne, xsgdmaRingLoop_bd hi hsa,
      Nat.mod_eq_of_lt (show i + 1 < len / chunk by omega), if_pos hin]

/-- `xsgdma_ring` writes nothing outside its descriptors. -/
lemma xsgdmaRing_of_notMem {head ioHead a : ℕ} {len chunk : ℕ} {bd : ℕ → XsgdmaDesc}
    (hpos : 0 < len / chunk) (h : a < head ∨ head + 64 * (len / chunk) ≤ a) :
    (xsgdmaRing head ioHead len chunk bd).2 a = bd a := by
  simp only [xsgdmaRing, xsgdmaRingLoop_fst]
  rw [Function.update_of_ne (by omega), xsgdmaRingLoop_of_notMem h, if_neg (by omega)]

/-- The ring of `n` descriptors at `ring` is a cycle over consecutive chunks at `io`. -/
structure RingLayout (ring io chunk n : ℕ) (bd : ℕ → XsgdmaDesc) : Prop where
  next : ∀ i < n, (bd (bdAddr ring i)).next = bdAddr ring ((i + 1) % n)
  buffer : ∀ i < n, (bd (bdAddr ring i)).buffer = io + chunk * i

/-- Every descriptor of the ring has the length of a chunk. -/
def ChunkLen (ring chunk n : ℕ) (bd : ℕ → XsgdmaDesc) : Prop :=
  ∀ i < n, (bd (bdAddr ring i)).control.bufferLen.toNat = chunk

lemma ringLayout_xsgdmaRing {ioHead len chunk : ℕ} (head : ℕ) (bd : ℕ → XsgdmaDesc)
    (hio : ioHead + len ≤ 2 ^ 32) (hchunk : 0 < chunk) :
    RingLayout head ioHead chunk (len / chunk) (xsgdmaRing head ioHead len chunk bd).2 where
  next i hi := by rw [xsgdmaRing_bd hi hio hchunk]
  buffer i hi := by rw [xsgdmaRing_bd hi hio hchunk]

lemma chunkLen_xsgdmaRing {ioHead len chunk : ℕ} (head : ℕ) (bd : ℕ → XsgdmaDesc)
    (hio : ioHead + len ≤ 2 ^ 32) (hchunk : 0 < chunk) (hlt : chunk < 2 ^ 26) :
    ChunkLen head chunk (len / chunk) (xsgdmaRing head ioHead len chunk bd).2 := by
  intro i hi
  rw [xsgdmaRing_bd hi hio hchunk, BitVec.toNat_ofNat, Nat.mod_eq_of_lt hlt]

/-- A ring keeps its layout when a descriptor keeps its links. -/
lemma RingLayout.update {ring io chunk n : ℕ} {bd : ℕ → XsgdmaDesc}
    (h : RingLayout ring io chunk n bd) (a : ℕ) (d : XsgdmaDesc) (hnext : d.next = (bd a).next)
    (hbuffer : d.buffer = (bd a).buffer) :
    RingLayout ring io chunk n (Function.update bd a d) where
  next i hi := by
    rw [← h.next i hi, Function.update_apply]
    split
    · next ha => rw [hnext, ha]
    · rfl
  buffer i hi := by
    rw [← h.buffer i hi, Function.update_apply]
    split
    · next ha => rw [hbuffer, ha]
    · rfl

lemma ChunkLen.update {ring chunk n : ℕ} {bd : ℕ → XsgdmaDesc} (h : ChunkLen ring chunk n bd)
    (a : ℕ) (d : XsgdmaDesc) (hcontrol : d.control = (bd a).control) :
    ChunkLen ring chunk n (Function.update bd a d) := by
  intro i hi
  rw [← h i hi, Function.update_apply]
  split
  · next ha => rw [hcontrol, ha]
  · rfl

/-- Arguments that pass the check: the ring fits the buffer area in whole chunks. -/
lemma ringArgs_of_ok {allocLen ioBuff : UInt32}
    (h : ringArgsInvalid allocLen ioBuff = .ok false) :
    0 < ioBuff.toNat ∧ ioBuff.toNat ≤ allocLen.toNat ∧ allocLen.toNat ≤ 16384 ∧
      allocLen.toNat % ioBuff.toNat = 0 := by
  unfold ringArgsInvalid at h
  split at h
  · simp at h
  · next hchk =>
    split at h
    · simp at h
    · next hzero =>
      simp only [not_or, gt_iff_lt, UInt32.not_lt, UInt32.le_iff_toNat_le] at hchk
      have hmod : allocLen % ioBuff = 0 := by simpa using h
      have hmod' := congrArg UInt32.toNat hmod
      rw [UInt32.toNat_mod] at hmod'
      have hne : ioBuff.toNat ≠ 0 := fun h0 => hzero (UInt32.toNat_inj.1 h0)
      exact ⟨by omega, hchk.2.2, hchk.2.1, hmod'⟩

/-- The functions that set up a ring all check their arguments and their channel first. -/
lemma of_ringSetup {allocLen ioBuff : UInt32} {ch : XsgdmaCh} {s s₁ s' : State} {p q : ℕ}
    (h : (match ringArgsInvalid allocLen ioBuff with
      | .error e => .error e
      | .ok true => .ok (none, s)
      | .ok false => if !xsgdmaSgallowed ch then .ok (none, s) else .ok (some q, s₁)) =
        (.ok (some p, s') : Except Fault (Option ℕ × State))) :
    ringArgsInvalid allocLen ioBuff = .ok false ∧ xsgdmaSgallowed ch = true ∧ s' = s₁ := by
  split at h
  · cases h
  · cases h
  · next hargs =>
    split at h
    · cases h
    · next hallowed =>
      cases h
      exact ⟨hargs, by simpa using hallowed, rfl⟩

end EvtDrivenOs.Xdma
