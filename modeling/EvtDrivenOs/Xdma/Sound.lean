/-
The audio channel of `sys/xdma.c`: the setup `_sbdma_sgcyclic`, the call
`_sbdma_sgcmplt` that hands out a played buffer for refilling, the interrupt
handler `onsbdma_irq`, and the engine that plays two buffers in turn.

`SbRing k c` describes the channel after `c` completions of which the first `k`
were served.  `_sbdma_sgcmplt` always searches from the first descriptor on, so
with two completions waiting it serves the first descriptor, whichever of the two
came first.
-/
import EvtDrivenOs.Xdma.Basic

namespace EvtDrivenOs.Xdma

open EvtDrivenOs.Lib

/-! ### The code -/

/-- `XDMA1_MM2S_BDRING[i]`. -/
def sbBd (i : ℕ) : ℕ := bdAddr xdma1Mm2sBdring i

@[simp] lemma sbBd_inj {i j : ℕ} : sbBd i = sbBd j ↔ i = j := bdAddr_inj

/-- The buffer of descriptor `i`. -/
def sbBuffer (i : ℕ) : ℕ := xdma1IoBuffer + 8192 * i

/-- The engine of the sound is stopped. -/
def sbdmaSgstop (s : State) : State := { s with dma1Mm2s := xsgdmaEngstop s.dma1Mm2s }

/-- The search for a completed descriptor: `n` rounds are left. -/
def sbdmaFind (bd : ℕ → XsgdmaDesc) : ℕ → ℕ → Option ℕ
  | 0, _ => none
  | n + 1, bdDesc =>
    if bdDesc = 0 then none
    else if (bd bdDesc).status.cmplt then some bdDesc
    else sbdmaFind bd n (bd bdDesc).next

/-- Hands out the buffer of a completed descriptor; `none` stands for `NULL`. -/
def sbdmaSgcmplt (s : State) (len : UInt32) : Option ℕ × State :=
  match sbdmaFind s.bd xdma1MaxBds (sbBd 0) with
  | none => (none, s)
  | some bdDesc =>
    let bdBuffer := (s.bd bdDesc).buffer
    let bdBlen := (s.bd bdDesc).control.bufferLen.toNat
    if bdBlen ≠ len.toNat then (none, s)
    else
      (some bdBuffer,
        { s with
          bd := Function.update s.bd bdDesc (s.bd bdDesc).clearStatus
          sgdmaSgls := { s.sgdmaSgls with sbdmaCmplt := false } })

/-- Resets the channel, fills its buffers with `seed` and starts it on a ring. -/
def sbdmaSgcyclic (s : State) (seed : UInt8) (allocLen ioBuff : UInt32) :
    Except Fault (Option ℕ × State) :=
  match ringArgsInvalid allocLen ioBuff with
  | .error e => .error e
  | .ok true => .ok (none, s)
  | .ok false =>
    if !xsgdmaSgallowed s.dma1Mm2s then .ok (none, s)
    else
      let ch := xsgdmaEngreset s.dma1Mm2s
      .ok (some xdma1IoBuffer,
        { s with
          ram := store s.ram xdma1IoBuffer (List.replicate allocLen.toNat seed)
          bd := (xsgdmaRing xdma1Mm2sBdring xdma1IoBuffer allocLen.toNat ioBuff.toNat s.bd).2
          sgdmaSgls := { s.sgdmaSgls with sbdmaCmplt := false, sbdmaBuserr := false }
          dma1Mm2s := xsgdmaCyclicTrans ch xdma1Mm2sBdring })

/-- The audio interrupt handler. -/
def onsbdmaIrq (s : State) : State :=
  let sr := (xsgdmaAckirq s.dma1Mm2s).1
  let ioe := sr.errIrq
  let ioc := sr.iocIrq
  { s with
    dma1Mm2s := (xsgdmaAckirq s.dma1Mm2s).2
    sgdmaSgls := { s.sgdmaSgls with sbdmaCmplt := ioc, sbdmaBuserr := ioe }
    raised := (if ioe then .sigbus else .sigint) :: s.raised }

/-! ### The engine -/

/-- The engine has played its current descriptor, latches the completion interrupt and
goes on to the next one. -/
def sbdmaComplete (s : State) : State :=
  let ch := s.dma1Mm2s
  let d := s.bd ch.currdesc
  { s with
    bd := Function.update s.bd ch.currdesc
      { d with status := { transLen := d.control.bufferLen, cmplt := true } }
    dma1Mm2s := { ch with currdesc := d.next, sr := { ch.sr with iocIrq := true } } }

/-! ### The ring of two buffers -/

/-- The channel after `c` completions, the first `k` of which were served. -/
structure SbRing (k c : ℕ) (s : State) : Prop where
  served_le : k ≤ c
  layout : RingLayout xdma1Mm2sBdring xdma1IoBuffer 8192 2 s.bd
  chunkLen : ChunkLen xdma1Mm2sBdring 8192 2 s.bd
  cursor : s.dma1Mm2s.currdesc = sbBd (c % 2)
  cmplt : ∀ i < 2, (s.bd (sbBd i)).status.cmplt = true ↔ ∃ j, k ≤ j ∧ j < c ∧ j % 2 = i
  active : s.dma1Mm2s.active = true
  errIrq : s.dma1Mm2s.sr.errIrq = false
  buserr : s.sgdmaSgls.sbdmaBuserr = false

namespace SbRing

variable {k c : ℕ} {s : State}

lemma buffer (h : SbRing k c s) (j : ℕ) :
    (s.bd (sbBd (j % 2))).buffer = sbBuffer (j % 2) :=
  h.layout.buffer _ (Nat.mod_lt _ (by decide))

/-- What the engine is about to play. -/
lemma bdFrame_eq (h : SbRing k c s) :
    bdFrame s s.dma1Mm2s.currdesc = load s.ram (sbBuffer (c % 2)) 8192 := by
  have hlen : (s.bd (sbBd (c % 2))).control.bufferLen.toNat = 8192 :=
    h.chunkLen _ (Nat.mod_lt _ (by decide))
  rw [bdFrame, h.cursor, h.buffer, hlen]

lemma complete (h : SbRing k c s) : SbRing k (c + 1) (sbdmaComplete s) := by
  have hlt : c % 2 < 2 := Nat.mod_lt _ (by decide)
  refine
    { served_le := Nat.le_succ_of_le h.served_le
      layout := h.layout.update _ _ rfl rfl
      chunkLen := h.chunkLen.update _ _ rfl
      cursor := ?_
      cmplt := ?_
      active := h.active
      errIrq := h.errIrq
      buserr := h.buserr }
  · show (s.bd s.dma1Mm2s.currdesc).next = sbBd ((c + 1) % 2)
    rw [h.cursor, sbBd, h.layout.next _ hlt, Nat.mod_add_mod, sbBd]
  · intro i hi
    have hle := h.served_le
    simp only [sbdmaComplete, h.cursor, Function.update_apply, sbBd_inj]
    split
    · next heq => exact iff_of_true rfl ⟨c, hle, Nat.lt_succ_self c, heq.symm⟩
    · next hne =>
      rw [h.cmplt i hi]
      constructor
      · rintro ⟨j, hkj, hjc, hj⟩
        exact ⟨j, hkj, Nat.lt_succ_of_lt hjc, hj⟩
      · rintro ⟨j, hkj, hjc, hj⟩
        refine ⟨j, hkj, ?_, hj⟩
        rcases Nat.lt_succ_iff_lt_or_eq.1 hjc with hlt' | rfl
        · exact hlt'
        · exact absurd hj.symm hne

lemma irq (h : SbRing k c s) : SbRing k c (onsbdmaIrq s) where
  served_le := h.served_le
  layout := h.layout
  chunkLen := h.chunkLen
  cursor := h.cursor
  cmplt := h.cmplt
  active := h.active
  errIrq := by simp [onsbdmaIrq, xsgdmaAckirq, Xdmasr.write, h.errIrq]
  buserr := h.errIrq

/-- The bytes of the buffers do not matter to the ring. -/
lemma ram (h : SbRing k c s) (m : ℕ → UInt8) : SbRing k c { s with ram := m } where
  served_le := h.served_le
  layout := h.layout
  chunkLen := h.chunkLen
  cursor := h.cursor
  cmplt := h.cmplt
  active := h.active
  errIrq := h.errIrq
  buserr := h.buserr

/-! ### Serving a completion -/

/-- The state after the descriptor in slot `i` was handed out. -/
def handOut (s : State) (i : ℕ) : State :=
  { s with
    bd := Function.update s.bd (sbBd i) (s.bd (sbBd i)).clearStatus
    sgdmaSgls := { s.sgdmaSgls with sbdmaCmplt := false } }

/-- The search takes the first descriptor when it is completed, and else the second. -/
lemma sbdmaFind_eq (h : SbRing k c s) :
    sbdmaFind s.bd xdma1MaxBds (sbBd 0) =
      if (s.bd (sbBd 0)).status.cmplt then some (sbBd 0)
      else if (s.bd (sbBd 1)).status.cmplt then some (sbBd 1)
      else none := by
  have hnext : (s.bd (sbBd 0)).next = sbBd 1 := h.layout.next 0 (by decide)
  have hpos0 : sbBd 0 ≠ 0 := by decide
  have hpos1 : sbBd 1 ≠ 0 := by decide
  simp only [xdma1MaxBds, sbdmaFind, if_neg hpos0, if_neg hpos1, hnext]

lemma sbdmaSgcmplt_of_find (h : SbRing k c s) {i : ℕ} (hi : i < 2)
    (hfind : sbdmaFind s.bd xdma1MaxBds (sbBd 0) = some (sbBd i)) :
    sbdmaSgcmplt s 8192 = (some (sbBuffer i), handOut s i) := by
  have hbuf : (s.bd (sbBd i)).buffer = sbBuffer i := h.layout.buffer i hi
  have hlen : (s.bd (sbBd i)).control.bufferLen.toNat = (8192 : UInt32).toNat := h.chunkLen i hi
  simp only [sbdmaSgcmplt, hfind, hbuf, hlen, ne_eq, not_true, if_false, handOut]

/-- Nothing is handed out when nothing waits. -/
lemma sbdmaSgcmplt_none (h : SbRing k k s) : sbdmaSgcmplt s 8192 = (none, s) := by
  have hclear : ∀ i < 2, (s.bd (sbBd i)).status.cmplt = false := fun i hi => by
    rw [← Bool.not_eq_true, h.cmplt i hi]
    rintro ⟨j, hkj, hjk, -⟩
    omega
  have hfind : sbdmaFind s.bd xdma1MaxBds (sbBd 0) = none := by
    rw [h.sbdmaFind_eq, hclear 0 (by decide), hclear 1 (by decide)]
    rfl
  simp only [sbdmaSgcmplt, hfind]

/-- The slot that is served when at least one completion waits: that of the oldest one if
it is alone, and else the first slot. -/
lemma sbdmaSgcmplt_some (h : SbRing k c s) (hlt : k < c) :
    sbdmaSgcmplt s 8192 =
      if c = k + 1 then (some (sbBuffer (k % 2)), handOut s (k % 2))
      else (some (sbBuffer 0), handOut s 0) := by
  have h0 := h.cmplt 0 (by decide)
  have h1 := h.cmplt 1 (by decide)
  have hfind := h.sbdmaFind_eq
  -- a single completion is found wherever it is; of two the first slot has one
  by_cases hone : c = k + 1
  · rw [if_pos hone]
    refine h.sbdmaSgcmplt_of_find (Nat.mod_lt _ (by decide)) ?_
    rcases Nat.mod_two_eq_zero_or_one k with hk | hk
    · rw [hfind, if_pos (h0.2 ⟨k, le_rfl, hlt, hk⟩), hk]
    · have hclear : ¬ (s.bd (sbBd 0)).status.cmplt = true := by
        rw [h0]
        rintro ⟨j, hkj, hjc, hj⟩
        omega
      rw [hfind, if_neg hclear, if_pos (h1.2 ⟨k, le_rfl, hlt, hk⟩), hk]
  · rw [if_neg hone]
    refine h.sbdmaSgcmplt_of_find (by decide) ?_
    rcases Nat.mod_two_eq_zero_or_one k with hk | hk
    · rw [hfind, if_pos (h0.2 ⟨k, le_rfl, hlt, hk⟩)]
    · rw [hfind, if_pos (h0.2 ⟨k + 1, Nat.le_succ k, by omega, by omega⟩)]

/-- The oldest completion was served. -/
lemma handOut_oldest (h : SbRing k c s) (hlt : k < c) (hle : c ≤ k + 2) :
    SbRing (k + 1) c (handOut s (k % 2)) where
  served_le := hlt
  layout := h.layout.update _ _ rfl rfl
  chunkLen := h.chunkLen.update _ _ rfl
  cursor := h.cursor
  cmplt i hi := by
    simp only [handOut, Function.update_apply, sbBd_inj]
    split
    · next heq =>
      refine iff_of_false (by simp [XsgdmaDesc.clearStatus]) ?_
      rintro ⟨j, hkj, hjc, hj⟩
      omega
    · next hne =>
      rw [h.cmplt i hi]
      constructor
      · rintro ⟨j, hkj, hjc, hj⟩
        refine ⟨j, ?_, hjc, hj⟩
        rcases Nat.eq_or_lt_of_le hkj with rfl | hlt'
        · exact absurd hj.symm hne
        · exact hlt'
      · rintro ⟨j, hkj, hjc, hj⟩
        exact ⟨j, by omega, hjc, hj⟩
  active := h.active
  errIrq := h.errIrq
  buserr := h.buserr

end SbRing

/-- The setup with two chunks of 8192 bytes does not fail as a computation. -/
lemma sbdmaSgcyclic_total (s : State) (seed : UInt8) :
    ∃ r, sbdmaSgcyclic s seed 16384 8192 = .ok r := by
  have hargs : ringArgsInvalid 16384 8192 = .ok false := by decide
  simp only [sbdmaSgcyclic, hargs]
  split
  · exact ⟨_, rfl⟩
  · exact ⟨_, rfl⟩

/-- A ring of two buffers just set up: nothing has completed, and the buffers are silent. -/
lemma sbdmaSgcyclic_ok {s s' : State} {seed : UInt8} {buf : ℕ}
    (h : sbdmaSgcyclic s seed 16384 8192 = .ok (some buf, s')) :
    SbRing 0 0 s' ∧ s'.dma1Mm2s.sr.iocIrq = false ∧ s'.sgdmaSgls.sbdmaCmplt = false ∧
      s'.ram = store s.ram xdma1IoBuffer (List.replicate 16384 seed) := by
  have hargs : ringArgsInvalid 16384 8192 = .ok false := by decide
  simp only [sbdmaSgcyclic, hargs] at h
  split at h
  · simp at h
  · simp only [Except.ok.injEq, Prod.mk.injEq] at h
    obtain ⟨-, rfl⟩ := h
    have hlayout := ringLayout_xsgdmaRing xdma1Mm2sBdring s.bd
      (show xdma1IoBuffer + 16384 ≤ 2 ^ 32 by decide) (show 0 < 8192 by decide)
    have hlens := chunkLen_xsgdmaRing xdma1Mm2sBdring s.bd
      (show xdma1IoBuffer + 16384 ≤ 2 ^ 32 by decide) (show 0 < 8192 by decide) (by decide)
    refine ⟨⟨le_rfl, hlayout, hlens, rfl, fun i hi => ?_, rfl, rfl, rfl⟩, rfl, rfl, rfl⟩
    refine iff_of_false ?_ ?_
    · have hclear : ((xsgdmaRing xdma1Mm2sBdring xdma1IoBuffer 16384 8192 s.bd).2
          (sbBd i)).status = {} := by
        rw [sbBd, xsgdmaRing_bd (show i < 16384 / 8192 from hi) (by decide) (by decide)]
      show ¬ ((xsgdmaRing xdma1Mm2sBdring xdma1IoBuffer 16384 8192 s.bd).2
        (sbBd i)).status.cmplt = true
      rw [hclear]
      decide
    · rintro ⟨j, -, hj, -⟩
      exact absurd hj (Nat.not_lt_zero j)

end EvtDrivenOs.Xdma
