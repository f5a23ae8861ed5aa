/-
Which rings of descriptors fit.

The functions that set up a ring check that the chunks are aligned, that they fit the
buffer area and that they are a whole number.  The address map has room for two descriptors
of DMA1 and for ten of each channel of DMA2, and the engine counts the bytes of a chunk in
14 bits; neither is checked, nor is a chunk of no bytes.
-/
import EvtDrivenOs.Xdma.Receive
import EvtDrivenOs.Xdma.Sound
import EvtDrivenOs.Xdma.Transmit

namespace EvtDrivenOs.Xdma

/-- `XDMA_BTT_MAX` -/
def xdmaBttMax : ℕ := 2 ^ 14 - 1

/-- The setup of a ring at `base` ends without a division by zero, and it has returned `NULL`
or left a ring of `n` descriptors in the room for `maxBds` of them, with chunks that the
engine can count and with `n` as the code that uses the ring has it. -/
def RingFits (base buffer maxBds : ℕ) (used : ℕ → State → Prop)
    (r : Except Fault (Option ℕ × State)) : Prop :=
  ∃ p s, r = .ok (p, s) ∧ (p = none ∨ ∃ n chunk, 0 < n ∧ RingLayout base buffer chunk n s.bd ∧
    ChunkLen base chunk n s.bd ∧ (∀ i < n, bdAddr base i + 64 ≤ base + 64 * maxBds) ∧
    chunk ≤ xdmaBttMax ∧ used n s)

/-- The room for a ring ends where the next one starts. -/
example : xdma1Mm2sBdring + 64 * xdma1MaxBds = xdma2S2mmBdring ∧
    xdma2S2mmBdring + 64 * xdma2MaxBds = xdma2Mm2sBdring := by
  decide

/-- Two rings at one place are of one length: the last descriptor of the shorter one links
back to the first. -/
lemma RingLayout.unique {base buffer chunk chunk' m n : ℕ} {bd : ℕ → XsgdmaDesc}
    (hm : RingLayout base buffer chunk m bd) (hn : RingLayout base buffer chunk' n bd)
    (hm0 : 0 < m) (hn0 : 0 < n) : m = n := by
  have hlink : ∀ {j k : ℕ} {c c' : ℕ}, RingLayout base buffer c j bd →
      RingLayout base buffer c' k bd → 0 < j → ¬ j < k := by
    intro j k c c' hj hk hj0 hlt
    have hback := hj.next (j - 1) (by omega)
    rw [hk.next (j - 1) (by omega), bdAddr_inj, Nat.sub_add_cancel hj0, Nat.mod_self,
      Nat.mod_eq_of_lt hlt] at hback
    omega
  exact Nat.le_antisymm (Nat.not_lt.mp (hlink hn hm hn0)) (Nat.not_lt.mp (hlink hm hn hm0))

lemma ChunkLen.unique {base chunk chunk' n : ℕ} {bd : ℕ → XsgdmaDesc}
    (h : ChunkLen base chunk n bd) (h' : ChunkLen base chunk' n bd) (hn : 0 < n) :
    chunk = chunk' :=
  (h 0 hn).symm.trans (h' 0 hn)

/-- The check divides by a chunk of no bytes, unless the total size is refused before. -/
lemma ringArgs_divByZero {allocLen ioBuff : UInt32} :
    (∃ e, ringArgsInvalid allocLen ioBuff = .error e) ↔
      ioBuff = 0 ∧ allocLen ≤ xdmaIoBufferSize := by
  constructor
  · rintro ⟨e, h⟩
    rw [ringArgsInvalid] at h
    split at h
    · cases h
    · next hchk =>
      split at h
      · next hzero => exact ⟨hzero, UInt32.not_lt.mp fun hlt => hchk (.inr (.inl hlt))⟩
      · cases h
  · rintro ⟨rfl, hle⟩
    have hchk : ¬ ((0 : UInt32) &&& xdmaDataAlign ≠ 0 ∨ allocLen > xdmaIoBufferSize ∨
        allocLen < 0) := by
      rintro (hmask | hbig | hneg)
      · exact hmask (by decide)
      · exact UInt32.not_lt.mpr hle hbig
      · exact absurd (UInt32.lt_iff_toNat_lt.mp hneg) (Nat.not_lt_zero _)
    exact ⟨.divByZero, by rw [ringArgsInvalid, if_neg hchk, if_pos rfl]⟩

variable {s s₁ : State} {ch : XsgdmaCh} {allocLen ioBuff : UInt32} {base buffer maxBds q : ℕ}
  {used : ℕ → State → Prop}

/-- The ring that accepted arguments give. -/
lemma ringFits_built (hbuffer : buffer + 16384 ≤ 2 ^ 32)
    (hbd : s₁.bd = (xsgdmaRing base buffer allocLen.toNat ioBuff.toNat s.bd).2)
    (hargs : ringArgsInvalid allocLen ioBuff = .ok false) :
    RingFits base buffer maxBds used (.ok (some q, s₁)) ↔
      ioBuff.toNat ≤ xdmaBttMax ∧ allocLen.toNat / ioBuff.toNat ≤ maxBds ∧
        used (allocLen.toNat / ioBuff.toNat) s₁ := by
  obtain ⟨hchunk, hle, hsize, -⟩ := ringArgs_of_ok hargs
  have hpos : 0 < allocLen.toNat / ioBuff.toNat := Nat.div_pos hle hchunk
  have hlayout := ringLayout_xsgdmaRing base s.bd (show buffer + allocLen.toNat ≤ 2 ^ 32 by omega)
    hchunk
  have hlens := chunkLen_xsgdmaRing base s.bd (show buffer + allocLen.toNat ≤ 2 ^ 32 by omega)
    hchunk (by omega)
  rw [← hbd] at hlayout hlens
  constructor
  · rintro ⟨p, s', ⟨⟩, hnone | ⟨n, chunk, hn, hlayout', hlens', hroom, hfit, hused⟩⟩
    · cases hnone
    · -- the links of the ring tell its length, so it is the one that was built
      obtain rfl := hlayout'.unique hlayout hn hpos
      obtain rfl := hlens'.unique hlens hn
      refine ⟨hfit, ?_, hused⟩
      have hlast := hroom _ (Nat.sub_lt hn Nat.one_pos)
      rw [bdAddr] at hlast
      omega
  · rintro ⟨hfit, hroom, hused⟩
    refine ⟨_, _, rfl, .inr ⟨_, _, hpos, hlayout, hlens, fun i hi => ?_, hfit, hused⟩⟩
    rw [bdAddr]
    omega

/-- The setups of a ring have one form, and so there is one answer when the ring fits. -/
lemma ringFits_iff (hbuffer : buffer + 16384 ≤ 2 ^ 32)
    (hbd : s₁.bd = (xsgdmaRing base buffer allocLen.toNat ioBuff.toNat s.bd).2) :
    RingFits base buffer maxBds used (match ringArgsInvalid allocLen ioBuff with
      | .error e => .error e
      | .ok true => .ok (none, s)
      | .ok false => if !xsgdmaSgallowed ch then .ok (none, s) else .ok (some q, s₁)) ↔
      ¬ (ioBuff = 0 ∧ allocLen ≤ xdmaIoBufferSize) ∧
        (ringArgsInvalid allocLen ioBuff = .ok false → xsgdmaSgallowed ch = true →
          ioBuff.toNat ≤ xdmaBttMax ∧ allocLen.toNat / ioBuff.toNat ≤ maxBds ∧
            used (allocLen.toNat / ioBuff.toNat) s₁) := by
  rw [← ringArgs_divByZero]
  cases hargs : ringArgsInvalid allocLen ioBuff with
  | error e =>
    refine iff_of_false ?_ fun h => h.1 ⟨e, rfl⟩
    rintro ⟨p, s', hok, -⟩
    cases hok
  | ok invalid =>
    have hok : ¬ ∃ e, (Except.ok invalid : Except Fault Bool) = .error e := by
      rintro ⟨e, he⟩
      cases he
    cases invalid with
    | true =>
      refine iff_of_true ⟨none, s, rfl, .inl rfl⟩ ⟨hok, fun h => ?_⟩
      cases h
    | false =>
      cases hallowed : xsgdmaSgallowed ch with
      | false =>
        refine iff_of_true ⟨none, s, rfl, .inl rfl⟩ ⟨hok, fun _ h => ?_⟩
        exact absurd h Bool.false_ne_true
      | true =>
        refine (ringFits_built hbuffer hbd hargs).trans ⟨fun h => ⟨hok, fun _ _ => h⟩, fun h => ?_⟩
        exact h.2 rfl rfl

/-! ### The three rings -/

/-- The number of descriptors is the transmitter's depth, and not the mark of a locked
queue. -/
def TxUses (n : ℕ) (s : State) : Prop := s.ethTxdepth.toNat = n ∧ s.ethTxdepth ≠ 0xFF

/-- The number of descriptors is the size of the receive queue. -/
def RxUses (n : ℕ) (_ : State) : Prop := n = xdma2MaxBds

/-- The arguments do not divide by zero, and if they are accepted on a free channel then `n`
chunks that the engine can count are in `count`. -/
def GoodArgs (ch : XsgdmaCh) (allocLen ioBuff : UInt32) (count : ℕ → Prop) : Prop :=
  ¬ (ioBuff = 0 ∧ allocLen ≤ xdmaIoBufferSize) ∧
    (ringArgsInvalid allocLen ioBuff = .ok false → xsgdmaSgallowed ch = true →
      ioBuff.toNat ≤ xdmaBttMax ∧ count (allocLen.toNat / ioBuff.toNat))

lemma txUses_ofNat {n : ℕ} (hn : n ≤ 10) {s : State} (hs : s.ethTxdepth = UInt8.ofNat n) :
    TxUses n s := by
  have hval : s.ethTxdepth.toNat = n := by
    rw [hs, UInt8.toNat_ofNat', Nat.mod_eq_of_lt (by omega)]
  refine ⟨hval, fun hlock => ?_⟩
  rw [hlock] at hval
  exact absurd hval (by rw [show (0xFF : UInt8).toNat = 255 from rfl]; omega)

lemma txRingFits_iff (s : State) (allocLen ioBuff : UInt32) :
    RingFits xdma2Mm2sBdring xdma2Mm2sBuffer xdma2MaxBds TxUses
        (ethdmaTxsgnormal s allocLen ioBuff) ↔
      GoodArgs s.dma2Mm2s allocLen ioBuff (· ≤ 10) := by
  refine (ringFits_iff (by decide) rfl).trans (and_congr_right fun _ => ?_)
  refine forall₂_congr fun _ _ => and_congr_right fun _ => ?_
  -- a depth of ten at most is kept in eight bits
  exact and_iff_left_of_imp fun hn => txUses_ofNat hn rfl

lemma rxRingFits_iff (s : State) (allocLen ioBuff : UInt32) :
    RingFits xdma2S2mmBdring xdma2S2mmBuffer xdma2MaxBds RxUses
        (ethdmaRxsgcyclic s allocLen ioBuff) ↔
      GoodArgs s.dma2S2mm allocLen ioBuff (· = 10) := by
  refine (ringFits_iff (by decide) rfl).trans (and_congr_right fun _ => ?_)
  refine forall₂_congr fun _ _ => and_congr_right fun _ => ?_
  exact and_iff_right_of_imp fun hn => Nat.le_of_eq hn

lemma sbRingFits_iff (s : State) (seed : UInt8) (allocLen ioBuff : UInt32) :
    RingFits xdma1Mm2sBdring xdma1IoBuffer xdma1MaxBds (fun _ _ => True)
        (sbdmaSgcyclic s seed allocLen ioBuff) ↔
      GoodArgs s.dma1Mm2s allocLen ioBuff (· ≤ 2) := by
  refine (ringFits_iff (by decide) rfl).trans (and_congr_right fun _ => ?_)
  refine forall₂_congr fun _ _ => and_congr_right fun _ => ?_
  exact and_iff_left trivial

/-- The rings fit if and only if no chunk is empty and the accepted arguments give chunks of
at most 16383 bytes: ten at most for the transmitter, ten for the receiver, and two at most
for the sound channel. -/
theorem rings_fit_iff (s : State) (seed : UInt8) (allocLen ioBuff : UInt32) :
    (RingFits xdma2Mm2sBdring xdma2Mm2sBuffer xdma2MaxBds TxUses
          (ethdmaTxsgnormal s allocLen ioBuff) ↔ GoodArgs s.dma2Mm2s allocLen ioBuff (· ≤ 10)) ∧
      (RingFits xdma2S2mmBdring xdma2S2mmBuffer xdma2MaxBds RxUses
          (ethdmaRxsgcyclic s allocLen ioBuff) ↔ GoodArgs s.dma2S2mm allocLen ioBuff (· = 10)) ∧
      (RingFits xdma1Mm2sBdring xdma1IoBuffer xdma1MaxBds (fun _ _ => True)
          (sbdmaSgcyclic s seed allocLen ioBuff) ↔ GoodArgs s.dma1Mm2s allocLen ioBuff (· ≤ 2)) :=
  ⟨txRingFits_iff s allocLen ioBuff, rxRingFits_iff s allocLen ioBuff,
    sbRingFits_iff s seed allocLen ioBuff⟩

/-- A chunk of no bytes is divided by; four chunks of 4096 bytes are a receive ring of four
descriptors, where the queue goes by ten. -/
theorem rings_do_not_fit :
    ¬ RingFits xdma2Mm2sBdring xdma2Mm2sBuffer xdma2MaxBds TxUses (ethdmaTxsgnormal {} 0 0) ∧
      ¬ RingFits xdma2S2mmBdring xdma2S2mmBuffer xdma2MaxBds RxUses
        (ethdmaRxsgcyclic {} 16384 4096) := by
  rw [txRingFits_iff, rxRingFits_iff]
  constructor
  · rintro ⟨hzero, -⟩
    exact hzero (by decide)
  · rintro ⟨-, haccepted⟩
    have hten := (haccepted (by decide) (by decide)).2
    exact absurd hten (by decide)

end EvtDrivenOs.Xdma
