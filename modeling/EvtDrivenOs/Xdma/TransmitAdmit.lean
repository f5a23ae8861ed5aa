/-
Which frames the transmit queue accepts, for every length and every number of descriptors.

`_ethdma_txsgenque` compares the end of the frame with the start of the next buffer.  The
buffer after the last one is the first, so the last descriptor is never filled; a frame that
just fits its buffer is rejected, and an empty one accepted.  The end of a frame of 2 GiB and
more wraps around, below every buffer.
-/
import EvtDrivenOs.Xdma.TransmitRun

namespace EvtDrivenOs.Xdma

open EvtDrivenOs.Lib

/-- The queue of `s` is that of the ring in `s₁`, filled to some point or locked. -/
structure TxQueueState (s₁ s : State) : Prop where
  next : ∀ i, (s.bd (txBd i)).next = (s₁.bd (txBd i)).next
  buffer : ∀ i, (s.bd (txBd i)).buffer = (s₁.bd (txBd i)).buffer
  depth : s.ethTxdepth = s₁.ethTxdepth
  tail : s.ethTxtail ≠ 0xFF → s.ethTxtail.toNat ≤ s₁.ethTxdepth.toNat

/-- A call with the bytes of a memory from an address on is accepted. -/
def Accepts (s : State) (mem : ℕ → UInt8) (addr : ℕ) (memLen : UInt32) : Prop :=
  (ethdmaTxsgenque s (load mem addr memLen.toNat)).1.isSome = true

namespace TxQueueState

variable {s₁ s : State}

lemma refl (h : s₁.ethTxtail.toNat ≤ s₁.ethTxdepth.toNat) : TxQueueState s₁ s₁ :=
  ⟨fun _ => rfl, fun _ => rfl, rfl, fun _ => h⟩

/-- A descriptor may change but for its links. -/
lemma update (h : TxQueueState s₁ s) {s' : State} {a : ℕ} {d : XsgdmaDesc}
    (hbd : s'.bd = Function.update s.bd a d) (hnext : d.next = (s.bd a).next)
    (hbuffer : d.buffer = (s.bd a).buffer) (hdepth : s'.ethTxdepth = s.ethTxdepth)
    (htail : s'.ethTxtail ≠ 0xFF → s'.ethTxtail.toNat ≤ s₁.ethTxdepth.toNat) :
    TxQueueState s₁ s' := by
  refine ⟨fun i => ?_, fun i => ?_, hdepth.trans h.depth, htail⟩
  · rw [← h.next i, hbd, Function.update_apply]
    split
    · next ha => rw [hnext, ha]
    · rfl
  · rw [← h.buffer i, hbd, Function.update_apply]
    split
    · next ha => rw [hbuffer, ha]
    · rfl

lemma enque (h : TxQueueState s₁ s) (mem : Frame) : TxQueueState s₁ (ethdmaTxsgenque s mem).2 := by
  rw [ethdmaTxsgenque]
  split
  · exact h
  · next hlock =>
    dsimp only
    split
    · exact h
    · rw [not_or] at hlock
      have hle := h.tail hlock.2
      have hne : s.ethTxtail.toNat ≠ s₁.ethTxdepth.toNat := by
        rw [← h.depth]
        exact fun heq => hlock.1 (UInt8.toNat_inj.1 heq)
      have hlt := s₁.ethTxdepth.toNat_lt
      refine h.update rfl rfl rfl rfl fun _ => ?_
      rw [UInt8.toNat_add, UInt8.toNat_one]
      omega

lemma step {t : TxSys} (h : TxQueueState s₁ t.drv) (e : TxEvent) :
    TxQueueState s₁ (txStep t e).drv := by
  cases e with
  | enque mem => exact h.enque mem
  | flush =>
    simp only [txStep, TxSys.flush, ethdmaTxsgflush]
    split
    · exact h
    · exact ⟨h.next, h.buffer, h.depth, fun hne => absurd rfl hne⟩
  | send ioc => exact h.update rfl rfl rfl rfl h.tail
  | irq =>
    refine ⟨h.next, h.buffer, h.depth, fun hne => ?_⟩
    simp only [txStep, TxSys.irq, onethdmaTxirq] at hne ⊢
    split
    · exact Nat.zero_le _
    · next hioc =>
      rw [if_neg hioc] at hne
      exact h.tail hne

end TxQueueState

/-- Whatever is done with a ring that was set up, its queue is in such a state. -/
lemma txQueueState_run {s₁ : State} (h : s₁.ethTxtail.toNat ≤ s₁.ethTxdepth.toNat)
    (evs : List TxEvent) : TxQueueState s₁ (run txStep { drv := s₁ } evs).drv :=
  @run_invariant _ _ txStep (fun t => TxQueueState s₁ t.drv) (fun _ e hq => hq.step e) _
    (.refl h) evs

/-! ### Which frames are accepted -/

section Admission

variable {s₁ s : State} {n chunk : ℕ}

/-- The ring of `n` descriptors that was set up. -/
structure TxRing (n chunk : ℕ) (s₁ : State) : Prop where
  layout : RingLayout xdma2Mm2sBdring xdma2Mm2sBuffer chunk n s₁.bd
  depth : s₁.ethTxdepth.toNat = n
  depth_le : n ≤ 10
  pos : 0 < chunk
  fits : chunk * n ≤ 16384
  tail : s₁.ethTxtail = 0

lemma txRing_of_txsgnormal {s₀ : State} {ioBuff : UInt32} {buf : ℕ} (h10 : n ≤ 10)
    (hstart : ethdmaTxsgnormal s₀ (UInt32.ofNat n * ioBuff) ioBuff = .ok (some buf, s₁)) :
    TxRing n ioBuff.toNat s₁ := by
  obtain ⟨⟨hpos, hle, hmax, -⟩, hlayout, -, hdepth, htail, -⟩ := ethdmaTxsgnormal_ring hstart
  have hmul : n * ioBuff.toNat ≤ 10 * ioBuff.toNat := Nat.mul_le_mul_right _ h10
  have halloc : (UInt32.ofNat n * ioBuff).toNat = n * ioBuff.toNat := by
    rw [UInt32.toNat_mul, UInt32.toNat_ofNat_of_lt' (lt_of_le_of_lt h10 (by decide))]
    exact Nat.mod_eq_of_lt (by omega)
  rw [halloc] at hmax hlayout hdepth
  rw [Nat.mul_div_cancel _ hpos] at hlayout hdepth
  refine ⟨hlayout, ?_, h10, hpos, by rwa [Nat.mul_comm], htail⟩
  rw [hdepth]
  exact UInt8.toNat_ofNat_of_lt' (lt_of_le_of_lt h10 (by decide))

/-- The end of the frame in the buffer of the next descriptor, as the code computes it. -/
def frameEnd (chunk : ℕ) (s : State) (memLen : UInt32) : ℕ :=
  xdma2Mm2sBuffer + chunk * s.ethTxtail.toNat + memLen.toNat

/-- A frame is accepted if its end, modulo `2 ^ 32`, lies below the next buffer. -/
lemma accepts_iff (hr : TxRing n chunk s₁) (hq : TxQueueState s₁ s) (hk : s.ethTxtail.toNat < n)
    (mem : ℕ → UInt8) (addr : ℕ) (memLen : UInt32) :
    Accepts s mem addr memLen ↔ frameEnd chunk s memLen % 2 ^ 32 <
      xdma2Mm2sBuffer + chunk * ((s.ethTxtail.toNat + 1) % n) := by
  have hlock : ¬ (s.ethTxtail = s.ethTxdepth ∨ s.ethTxtail = 0xFF) := by
    rintro (heq | heq)
    · rw [heq, hq.depth, hr.depth] at hk
      exact lt_irrefl n hk
    · rw [heq] at hk
      exact absurd (lt_of_lt_of_le hk hr.depth_le) (by decide)
  have hnextlt : (s.ethTxtail.toNat + 1) % n < n := Nat.mod_lt _ (by omega)
  have hbuffer : (s.bd (txBd s.ethTxtail.toNat)).buffer =
      xdma2Mm2sBuffer + chunk * s.ethTxtail.toNat :=
    (hq.buffer _).trans (hr.layout.buffer _ hk)
  have hnext : (s.bd (s.bd (txBd s.ethTxtail.toNat)).next).buffer =
      xdma2Mm2sBuffer + chunk * ((s.ethTxtail.toNat + 1) % n) := by
    rw [hq.next, txBd, hr.layout.next _ hk]
    exact (hq.buffer _).trans (hr.layout.buffer _ hnextlt)
  -- the buffers lie below the receive ring, so the first test follows from the second
  have hbelow : xdma2Mm2sBuffer + chunk * ((s.ethTxtail.toNat + 1) % n) ≤ xdma2S2mmBdring := by
    have hmul : chunk * ((s.ethTxtail.toNat + 1) % n) ≤ chunk * n :=
      Nat.mul_le_mul_left _ hnextlt.le
    have hfits := hr.fits
    simp only [xdma2Mm2sBuffer, xdma2S2mmBdring]
    omega
  rw [Accepts, ethdmaTxsgenque]
  simp only [if_neg hlock, hnext, hbuffer, length_load]
  rw [← frameEnd]
  split
  case isTrue hout => exact iff_of_false (by simp) (by omega)
  case isFalse hin => exact iff_of_true rfl (by omega)

/-- What the queue is meant to accept: any frame that is not empty and fits its buffer, as
long as a descriptor is free. -/
def AdmissionRight (s : State) (ioBuff : UInt32) (mem : ℕ → UInt8) (addr : ℕ)
    (memLen : UInt32) : Prop :=
  Accepts s mem addr memLen ↔ s.ethTxtail < s.ethTxdepth ∧ 0 < memLen ∧ memLen ≤ ioBuff

/-- When it does so.  The last descriptor takes only a frame whose end wraps around to below
the first buffer; the others take an empty frame, reject one that just fits, and take any
whose end wraps around. -/
def AdmissionHolds (s : State) (ioBuff memLen : UInt32) : Prop :=
  s.ethTxtail = s.ethTxdepth ∨
  (s.ethTxtail.toNat + 1 < s.ethTxdepth.toNat ∧ memLen ≠ 0 ∧ memLen ≠ ioBuff ∧
    frameEnd ioBuff.toNat s memLen < 2 ^ 32) ∨
  (s.ethTxtail.toNat + 1 = s.ethTxdepth.toNat ∧ (memLen = 0 ∨ ioBuff < memLen) ∧
    ¬ (2 ^ 32 ≤ frameEnd ioBuff.toNat s memLen ∧
      frameEnd ioBuff.toNat s memLen < 2 ^ 32 + xdma2Mm2sBuffer))

/-- A full queue accepts nothing. -/
lemma not_accepts_of_full (hfull : s.ethTxtail = s.ethTxdepth) (mem : ℕ → UInt8) (addr : ℕ)
    (memLen : UInt32) : ¬ Accepts s mem addr memLen := by
  rw [Accepts, ethdmaTxsgenque, if_pos (Or.inl hfull)]
  exact Bool.false_ne_true

end Admission

/-- Transmit admission: the queue accepts what it is meant to on exactly these lengths. -/
theorem txAdmission_iff {s₀ s₁ s : State} {n buf : ℕ} {ioBuff : UInt32} (h10 : n ≤ 10)
    (hstart : ethdmaTxsgnormal s₀ (UInt32.ofNat n * ioBuff) ioBuff = .ok (some buf, s₁))
    (hq : TxQueueState s₁ s) (hunlocked : s.ethTxtail ≠ 0xFF) (mem : ℕ → UInt8) (addr : ℕ)
    (memLen : UInt32) :
    AdmissionRight s ioBuff mem addr memLen ↔ AdmissionHolds s ioBuff memLen := by
  have hr := txRing_of_txsgnormal h10 hstart
  have hdepth : s.ethTxdepth.toNat = n := by rw [hq.depth, hr.depth]
  have hle : s.ethTxtail.toNat ≤ n := by
    rw [← hr.depth]
    exact hq.tail hunlocked
  rcases eq_or_lt_of_le hle with hfull | hk
  · -- a full queue: nothing is meant to be accepted
    have heq : s.ethTxtail = s.ethTxdepth := UInt8.toNat_inj.1 (hfull.trans hdepth.symm)
    refine iff_of_true (iff_of_false (not_accepts_of_full heq mem addr memLen) ?_) (.inl heq)
    rintro ⟨hlt, -⟩
    rw [heq] at hlt
    exact absurd hlt (UInt8.lt_irrefl _)
  · have hne : s.ethTxtail ≠ s.ethTxdepth := by
      intro heq
      rw [heq, hdepth] at hk
      exact lt_irrefl n hk
    have hlt : s.ethTxtail < s.ethTxdepth := by
      rw [UInt8.lt_iff_toNat_lt, hdepth]
      exact hk
    have hpos := hr.pos
    have hmem := memLen.toNat_lt
    have hfits := hr.fits
    have hsucc : ioBuff.toNat * (s.ethTxtail.toNat + 1) =
        ioBuff.toNat * s.ethTxtail.toNat + ioBuff.toNat := Nat.mul_succ _ _
    have hzero : memLen = 0 ↔ memLen.toNat = 0 := UInt32.toNat_inj.symm
    have hfit : memLen = ioBuff ↔ memLen.toNat = ioBuff.toNat := UInt32.toNat_inj.symm
    rw [AdmissionRight, AdmissionHolds, accepts_iff hr hq hk, UInt32.lt_iff_toNat_lt,
      UInt32.le_iff_toNat_le, UInt32.lt_iff_toNat_lt, hdepth, ne_eq, ne_eq, hzero, hfit,
      UInt32.toNat_zero]
    simp only [hlt, hne, true_and, false_or]
    rcases eq_or_lt_of_le (Nat.succ_le_of_lt hk) with hlast | hmore
    · -- the last descriptor: the next buffer is the first
      rw [show s.ethTxtail.toNat + 1 = n from hlast, Nat.mod_self, Nat.mul_zero, Nat.add_zero]
      have hend : ioBuff.toNat * s.ethTxtail.toNat + ioBuff.toNat ≤ 16384 := by
        rw [← hsucc]
        exact le_trans (Nat.mul_le_mul_left _ hlast.le) hfits
      simp only [lt_irrefl, false_and, true_and, false_or]
      simp only [frameEnd, xdma2Mm2sBuffer]
      omega
    · have hend : ioBuff.toNat * (s.ethTxtail.toNat + 1) ≤ 16384 :=
        le_trans (Nat.mul_le_mul_left _ hmore.le) hfits
      rw [Nat.mod_eq_of_lt hmore, hsucc]
      have hmore' : s.ethTxtail.toNat + 1 < n := hmore
      simp only [hmore', hmore'.ne, true_and, false_and, or_false]
      simp only [frameEnd, xdma2Mm2sBuffer]
      omega

/-- A short frame in the second descriptor of a ring of ten. -/
theorem txAdmission_iff_second :
    AdmissionRight (run txStep { drv := txBoot } [.enque [1, 2, 3]]).drv 1536 (fun _ => 7) 0 100 ↔
      AdmissionHolds (run txStep { drv := txBoot } [.enque [1, 2, 3]]).drv 1536 100 :=
  txAdmission_iff (n := 10) (by decide) txBoot_eq
    (txQueueState_run (by decide) [.enque [1, 2, 3]]) (by decide) _ 0 100

/-- A frame of just the size of its buffer is rejected by an empty queue. -/
theorem txAdmission_exactFit :
    ethdmaTxsgnormal {} (UInt32.ofNat 10 * 1536) 1536 = .ok (some xdma2Mm2sBuffer, txBoot) ∧
      TxQueueState txBoot txBoot ∧ txBoot.ethTxtail ≠ 0xFF ∧
      ¬ AdmissionRight txBoot 1536 (fun _ => 7) 0 1536 := by
  refine ⟨txBoot_eq, .refl (by decide), by decide, fun hright => ?_⟩
  have hr : TxRing 10 (1536 : UInt32).toNat txBoot :=
    txRing_of_txsgnormal (by decide) txBoot_eq
  have hacc : Accepts txBoot (fun _ => 7) 0 1536 := hright.2 (by decide)
  exact absurd ((accepts_iff hr (.refl (by decide)) (by decide) _ _ _).1 hacc) (by decide)

end EvtDrivenOs.Xdma
