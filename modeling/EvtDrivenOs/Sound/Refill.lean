/-
The audio buffers against an engine that runs ahead of the service.

`SbSys` is the service with what a bystander sees: what the engine played, and
which completions the service served.  A completion is identified by its number.
The completion flag is one bit, and it is cleared when one buffer is served; the
search for this buffer starts at the first descriptor.  So the buffers are served
in order, and none is forgotten, exactly as long as every tick that serves finds
one completion, or two of which the older is in the first descriptor and the
newer still has its interrupt to come.
-/
import EvtDrivenOs.Lib.Run
import EvtDrivenOs.Sound.Service
import Mathlib.Data.List.GetD

namespace EvtDrivenOs.Sound

open EvtDrivenOs.Lib EvtDrivenOs.Fat EvtDrivenOs.Xdma

variable {φ : Type*}

/-- The sound service with its history. -/
structure SbSys (φ : Type*) where
  sb : Sb φ
  /-- What the engine played, one entry for each completion. -/
  played : List Frame := []
  /-- The number of the completion last made from the buffer at an address. -/
  stamp : ℕ → ℕ := fun _ => 0
  /-- The completions whose buffers were handed out, in this order. -/
  served : List ℕ := []
  /-- The buffers that were refilled, and what they held afterwards. -/
  fills : List (ℕ × Frame) := []

namespace SbSys

variable (F : FatFs φ) (t : SbSys φ)

/-- The engine completes its current descriptor. -/
def complete : SbSys φ :=
  { t with
    sb := { t.sb with drv := sbdmaComplete t.sb.drv }
    played := t.played ++ [bdFrame t.sb.drv t.sb.drv.dma1Mm2s.currdesc]
    stamp := Function.update t.stamp (t.sb.drv.bd t.sb.drv.dma1Mm2s.currdesc).buffer
      t.played.length }

/-- The audio interrupt is served. -/
def irq : SbSys φ := { t with sb := { t.sb with drv := onsbdmaIrq t.sb.drv } }

/-- The buffer that `_sbdma_sgcmplt` returns in a tick. -/
def handed (pending : Bool) : Option ℕ :=
  if Serves t.sb pending then (sbdmaSgcmplt t.sb.drv sbBuffChunk).1 else none

/-- A tick of the service. -/
def tick (pending : Bool) : Except Fault (SbSys φ) :=
  match sbService F t.sb pending with
  | .error e => .error e
  | .ok sb =>
    .ok { t with
      sb := sb
      served := t.served ++ (t.handed pending).toList.map t.stamp
      fills :=
        if sb.sbReg = .sbWait then
          t.fills ++ (t.handed pending).toList.map fun b => (b, load sb.drv.ram b 8192)
        else t.fills }

/-- The number of completions that were not served yet. -/
def unserved : ℕ := t.played.length - t.served.length

variable {F t}

/-- A tick that serves a completion. -/
lemma tick_of_serves {pending : Bool} (hs : Serves t.sb pending) {b : ℕ} {d : State}
    (h : sbdmaSgcmplt t.sb.drv sbBuffChunk = (some b, d)) :
    t.tick F pending = .ok { t with
      sb := sbWrite F (sbSeen t.sb)
      served := t.served ++ [t.stamp b]
      fills :=
        if (sbWrite F (sbSeen t.sb)).sbReg = .sbWait then
          t.fills ++ [(b, load (sbWrite F (sbSeen t.sb)).drv.ram b 8192)]
        else t.fills } := by
  simp only [tick, sbService_of_serves hs, handed, if_pos hs, h, Option.toList_some,
    List.map_cons, List.map_nil]

/-- A tick that leaves the service as it is. -/
lemma tick_of_not_serves {pending : Bool} (hs : ¬ Serves t.sb pending)
    (h : sbService F t.sb pending = .ok t.sb) : t.tick F pending = .ok t := by
  simp [tick, h, handed, if_neg hs]

end SbSys

/-- The steps of the sound service and its engine. -/
inductive SbEvent
  | complete
  | irq
  | tick (pending : Bool)

/-- What an event does. -/
def sbStep (F : FatFs φ) (t : SbSys φ) : SbEvent → Except Fault (SbSys φ)
  | .complete => .ok t.complete
  | .irq => .ok t.irq
  | .tick pending => t.tick F pending

/-- What a tick must find: one completion, or two that it and the next tick serve in
the right order. -/
def SbSys.InOrder (t : SbSys φ) : Prop :=
  t.unserved = 1 ∨
    t.unserved = 2 ∧ t.served.length % 2 = 0 ∧ t.sb.drv.dma1Mm2s.sr.iocIrq = true

instance (t : SbSys φ) : Decidable t.InOrder :=
  inferInstanceAs (Decidable (_ ∨ _ ∧ _ ∧ _))

/-- The engine completes descriptors while it is active, the handler runs on a completion,
and a tick that serves one meets the condition. -/
def sbRefillOk (t : SbSys φ) : SbEvent → Prop
  | .complete => t.sb.drv.dma1Mm2s.active = true
  | .irq => t.sb.drv.dma1Mm2s.sr.iocIrq = true
  | .tick pending => Serves t.sb pending → t.InOrder

instance (t : SbSys φ) (e : SbEvent) : Decidable (sbRefillOk t e) :=
  match e with
  | .complete => inferInstanceAs (Decidable (_ = true))
  | .irq => inferInstanceAs (Decidable (_ = true))
  | .tick pending => inferInstanceAs (Decidable (Serves t.sb pending → t.InOrder))

/-- The buffers are served in the order of completion, and while the engine runs none is
forgotten: when neither the flag nor the interrupt announces one, all were served. -/
structure RefillCorrect (t : SbSys φ) : Prop where
  /-- The completions are served in their order, each once. -/
  order : t.served = List.range t.served.length
  /-- While the engine runs and nothing is signalled, none is left. -/
  all_served : t.sb.drv.dma1Mm2s.active = true → t.sb.drv.sgdmaSgls.sbdmaCmplt = false →
    t.sb.drv.dma1Mm2s.sr.iocIrq = false → t.served.length = t.played.length

/-! ### The invariant -/

/-- The service while the engine plays. -/
structure Playing (t : SbSys φ) : Prop where
  reg : t.sb.sbReg = .sbWait
  ring : SbRing t.served.length t.played.length t.sb.drv
  stamp : ∀ j < t.played.length, t.played.length ≤ j + 2 → t.stamp (sbBuffer (j % 2)) = j
  order : t.served = List.range t.served.length
  /-- The flag and the interrupt bit announce a completion each, not the same. -/
  announced : t.sb.drv.sgdmaSgls.sbdmaCmplt.toNat + t.sb.drv.dma1Mm2s.sr.iocIrq.toNat ≤ t.unserved
  unserved : t.sb.drv.sgdmaSgls.sbdmaCmplt = false → t.sb.drv.dma1Mm2s.sr.iocIrq = false →
    t.unserved = 0

/-- The service after it has closed the file and stopped the engine. -/
structure Stopped (t : SbSys φ) : Prop where
  reg : t.sb.sbReg = .sbIdle
  fd : t.sb.fd = -1
  active : t.sb.drv.dma1Mm2s.active = false
  ioc : t.sb.drv.dma1Mm2s.sr.iocIrq = false
  order : t.served = List.range t.served.length

/-- What holds at each step. -/
def RefillInv (t : SbSys φ) : Prop := Playing t ∨ Stopped t

lemma RefillInv.correct {t : SbSys φ} (h : RefillInv t) : RefillCorrect t := by
  rcases h with h | h
  · refine ⟨h.order, fun _ hflag hioc => ?_⟩
    have hnone := h.unserved hflag hioc
    have hle := h.ring.served_le
    unfold SbSys.unserved at hnone
    omega
  · refine ⟨h.order, fun hact => ?_⟩
    rw [h.active] at hact
    simp at hact

namespace Playing

variable {F : FatFs φ} {t : SbSys φ}

lemma complete (h : Playing t) : Playing t.complete := by
  have hle := h.ring.served_le
  have hlen : t.complete.played.length = t.played.length + 1 := by simp [SbSys.complete]
  have hbuf : (t.sb.drv.bd t.sb.drv.dma1Mm2s.currdesc).buffer =
      sbBuffer (t.played.length % 2) := by
    rw [h.ring.cursor, h.ring.buffer]
  refine
    { reg := h.reg
      ring := ?_
      stamp := fun j hj hlast => ?_
      order := h.order
      announced := ?_
      unserved := ?_ }
  · rw [hlen]
    exact h.ring.complete
  · rw [hlen] at hj hlast
    simp only [SbSys.complete, hbuf]
    rcases Nat.lt_succ_iff_lt_or_eq.1 hj with hlt | rfl
    · -- the completion before is in the other buffer
      have hne : sbBuffer (j % 2) ≠ sbBuffer (t.played.length % 2) := by
        simp only [sbBuffer]
        omega
      rw [Function.update_of_ne hne]
      exact h.stamp j hlt (by omega)
    · rw [Function.update_self]
  · have hann := h.announced
    have hioc : t.complete.sb.drv.dma1Mm2s.sr.iocIrq = true := rfl
    have hflag : t.complete.sb.drv.sgdmaSgls = t.sb.drv.sgdmaSgls := rfl
    have hserved : t.complete.served = t.served := rfl
    simp only [SbSys.unserved, hlen, hserved, hioc, hflag, Bool.toNat_true] at hann ⊢
    omega
  · intro _ hioc
    exact absurd (show true = false from hioc) (by decide)

lemma irq (h : Playing t) (hioc : t.sb.drv.dma1Mm2s.sr.iocIrq = true) : Playing t.irq := by
  have hann := h.announced
  have hflag : t.irq.sb.drv.sgdmaSgls.sbdmaCmplt = true := hioc
  have hclear : t.irq.sb.drv.dma1Mm2s.sr.iocIrq = false := xsgdmaAckirq_snd_iocIrq _
  refine
    { reg := h.reg
      ring := h.ring.irq
      stamp := h.stamp
      order := h.order
      announced := ?_
      unserved := fun hc => absurd hc (by rw [hflag]; decide) }
  rw [hflag, hclear]
  show 1 + 0 ≤ t.unserved
  rw [hioc, Bool.toNat_true] at hann
  omega

/-- The buffer that a serving tick is given, and the completion it belongs to. -/
lemma sgcmplt_eq (h : Playing t) {pending : Bool} (hs : Serves t.sb pending) :
    ∃ i, sbdmaSgcmplt t.sb.drv sbBuffChunk = (some (sbBuffer i), SbRing.handOut t.sb.drv i) ∧
      (t.stamp (sbBuffer i) = t.served.length ↔
        t.unserved = 1 ∨ t.unserved = 2 ∧ t.served.length % 2 = 0) ∧
      (t.stamp (sbBuffer i) = t.served.length → i = t.served.length % 2) := by
  have hann := h.announced
  have hle := h.ring.served_le
  rw [hs.2.2.1, Bool.toNat_true] at hann
  simp only [SbSys.unserved] at hann ⊢
  have hsome := h.ring.sbdmaSgcmplt_some (by omega)
  by_cases hone : t.played.length = t.served.length + 1
  · rw [if_pos hone] at hsome
    have hstamp := h.stamp t.served.length (by omega) (by omega)
    exact ⟨_, hsome, iff_of_true hstamp (Or.inl (by omega)), fun _ => rfl⟩
  · rw [if_neg hone] at hsome
    refine ⟨0, hsome, ?_⟩
    -- the first slot holds the newest completion with an even number
    rcases Nat.mod_two_eq_zero_or_one t.played.length with hc | hc
    · have hstamp := h.stamp (t.played.length - 2) (by omega) (by omega)
      rw [show (t.played.length - 2) % 2 = 0 by omega] at hstamp
      rw [hstamp]
      omega
    · have hstamp := h.stamp (t.played.length - 1) (by omega) (by omega)
      rw [show (t.played.length - 1) % 2 = 0 by omega] at hstamp
      rw [hstamp]
      omega

/-- A tick serves the oldest completion when it finds what it must find. -/
lemma tick_serves (h : Playing t) {pending : Bool} (hs : Serves t.sb pending) (ho : t.InOrder) :
    ∃ t', t.tick F pending = .ok t' ∧ RefillInv t' := by
  obtain ⟨i, hi, hstamp, hslot⟩ := h.sgcmplt_eq hs
  have hk : t.stamp (sbBuffer i) = t.served.length := hstamp.2 (by
    rcases ho with ho | ⟨ho, heven, -⟩
    · exact Or.inl ho
    · exact Or.inr ⟨ho, heven⟩)
  have hle := h.ring.served_le
  have hann := h.announced
  have hmany : t.played.length ≤ t.served.length + 2 := by
    unfold SbSys.InOrder SbSys.unserved at ho
    omega
  rw [hs.2.2.1, Bool.toNat_true] at hann
  simp only [SbSys.unserved] at hann
  have hring := h.ring.handOut_oldest (by omega) hmany
  rw [← hslot hk] at hring
  have horder : t.served ++ [t.stamp (sbBuffer i)] =
      List.range (t.served ++ [t.stamp (sbBuffer i)]).length := by
    rw [List.length_append, List.length_singleton, List.range_succ, hk, ← h.order]
  refine ⟨_, SbSys.tick_of_serves hs hi, ?_⟩
  -- the half is refilled and playing goes on, or there is nothing left to play
  rcases sbWrite_cases (F := F) (s := sbSeen t.sb) hi with ⟨m, hreg, hdrv⟩ | ⟨hreg, hfd, m, hdrv⟩
  · refine Or.inl
      { reg := hreg
        ring := ?_
        stamp := h.stamp
        order := horder
        announced := ?_
        unserved := fun _ hioc => ?_ }
    · rw [hdrv, List.length_append, List.length_singleton]
      exact hring.ram m
    · simp only [hdrv, SbSys.unserved, List.length_append, List.length_singleton]
      show 0 + t.sb.drv.dma1Mm2s.sr.iocIrq.toNat ≤ _
      omega
    · rw [hdrv] at hioc
      have hclear : t.sb.drv.dma1Mm2s.sr.iocIrq = false := hioc
      simp only [SbSys.InOrder, SbSys.unserved, hclear] at ho
      simp only [SbSys.unserved, List.length_append, List.length_singleton]
      simp at ho
      omega
  · refine Or.inr ⟨hreg, hfd, ?_, ?_, horder⟩
    · rw [hdrv]
      rfl
    · rw [hdrv]
      rfl

/-- A tick that goes on keeps the order only when it finds what it must find. -/
lemma inOrder_of_tick (h : Playing t) {pending : Bool} (hs : Serves t.sb pending) {t' : SbSys φ}
    (htick : t.tick F pending = .ok t') (hreg : t'.sb.sbReg = .sbWait)
    (hcorrect : RefillCorrect t') : t.InOrder := by
  obtain ⟨i, hi, hstamp, -⟩ := h.sgcmplt_eq hs
  rw [SbSys.tick_of_serves hs hi] at htick
  obtain rfl := Except.ok.inj htick
  have hlast := hcorrect.order
  rw [List.length_append, List.length_singleton, List.range_succ, ← h.order] at hlast
  have hk : t.stamp (sbBuffer i) = t.served.length := by
    simpa using List.append_cancel_left hlast
  rcases hstamp.1 hk with hone | ⟨htwo, heven⟩
  · exact Or.inl hone
  · refine Or.inr ⟨htwo, heven, ?_⟩
    by_contra hioc
    rcases sbWrite_cases (F := F) (s := sbSeen t.sb) hi with ⟨m, -, hdrv⟩ | ⟨hidle, -⟩
    · -- the flag was cleared, so without the interrupt nothing announces the second one
      have hclear : t.sb.drv.dma1Mm2s.sr.iocIrq = false := by simpa using hioc
      have hall := hcorrect.all_served (by rw [hdrv]; exact h.ring.active) (by rw [hdrv]; rfl)
        (by rw [hdrv]; exact hclear)
      simp only [List.length_append, List.length_singleton] at hall
      unfold SbSys.unserved at htwo
      omega
    · exact absurd (hidle.symm.trans hreg) (by decide)

end Playing

/-! ### Runs -/

variable {F : FatFs φ} {t : SbSys φ}

lemma RefillInv.step (h : RefillInv t) {e : SbEvent} (he : sbRefillOk t e) :
    ∃ t', sbStep F t e = .ok t' ∧ RefillInv t' := by
  rcases h with h | h
  · cases e with
    | complete => exact ⟨_, rfl, Or.inl h.complete⟩
    | irq => exact ⟨_, rfl, Or.inl (h.irq he)⟩
    | tick pending =>
      by_cases hs : Serves t.sb pending
      · exact h.tick_serves hs (he hs)
      · exact ⟨t, SbSys.tick_of_not_serves hs
          (sbService_of_not_serves h.reg h.ring.buserr hs), Or.inl h⟩
  · cases e with
    | complete => exact absurd he (by rw [sbRefillOk, h.active]; decide)
    | irq => exact absurd he (by rw [sbRefillOk, h.ioc]; decide)
    | tick pending =>
      have hs : ¬ Serves t.sb pending := fun hs => absurd (h.reg.symm.trans hs.1) (by decide)
      exact ⟨t, SbSys.tick_of_not_serves hs (sbService_of_idle h.reg (by rw [h.fd]; decide)),
        Or.inr h⟩

/-- The playback has just been started. -/
lemma Playing.start {s₀ s₁ : Sb φ} {pending : Bool} (hidle : s₀.sbReg = .sbIdle)
    (hstart : sbService F s₀ pending = .ok s₁) (hplay : s₁.sbReg = .sbWait) :
    Playing { sb := s₁ } := by
  obtain ⟨-, buf, d, hcyclic, rfl⟩ := sbService_start hidle hstart hplay
  obtain ⟨hring, hioc, hflag, -⟩ := sbdmaSgcyclic_ok hcyclic
  refine
    { reg := rfl
      ring := hring
      stamp := fun j hj => absurd hj (Nat.not_lt_zero j)
      order := rfl
      announced := ?_
      unserved := fun _ _ => rfl }
  simp [hioc, hflag]

/-- **The order of the audio buffers over whole runs.**  From the start of a playback on,
as long as every serving tick finds what it must find, the buffers are served in the
order of completion and none is forgotten; the first other tick breaks this, unless it
ends the playback. -/
theorem sbRefill_correct {s₀ s₁ : Sb φ} {pending : Bool} {evs : List SbEvent}
    (hidle : s₀.sbReg = .sbIdle) (hstart : sbService F s₀ pending = .ok s₁)
    (hplay : s₁.sbReg = .sbWait) (hevs : AdmissibleE (sbStep F) sbRefillOk { sb := s₁ } evs) :
    ∃ t, runE (sbStep F) { sb := s₁ } evs = .ok t ∧ RefillCorrect t ∧
      ∀ pending t', Serves t.sb pending → t.tick F pending = .ok t' → t'.sb.sbReg = .sbWait →
        (RefillCorrect t' ↔ t.InOrder) := by
  have hinit : RefillInv { sb := s₁ } := Or.inl (Playing.start hidle hstart hplay)
  obtain ⟨t, hrun, ht⟩ := hevs.invariant (fun _ _ h he => h.step he) hinit
  refine ⟨t, hrun, ht.correct, fun pending t' hs htick hreg => ?_⟩
  rcases ht with h | h
  · refine ⟨h.inOrder_of_tick hs htick hreg, fun ho => ?_⟩
    obtain ⟨t'', htick', hinv⟩ := h.tick_serves (F := F) hs ho
    obtain rfl := Except.ok.inj (htick.symm.trans htick')
    exact hinv.correct
  · exact absurd (h.reg.symm.trans hs.1) (by decide)

theorem sbRefill_correct_boot :
    ∃ t, runE (sbStep oneFile) { sb := sbBoot } [.complete, .irq, .complete, .tick true] = .ok t ∧
      RefillCorrect t ∧
      ∀ pending t', Serves t.sb pending → t.tick oneFile pending = .ok t' →
        t'.sb.sbReg = .sbWait → (RefillCorrect t' ↔ t.InOrder) :=
  sbRefill_correct rfl sbBoot_eq rfl (by decide)

/-- Two completions under one interrupt: a tick serves the first, clears the flag, and the
second is forgotten. -/
theorem sbRefill_forgotten :
    ∃ t, runE (sbStep oneFile) { sb := sbBoot } [.complete, .complete, .irq, .tick true] = .ok t ∧
      ¬ RefillCorrect t :=
  ⟨_, rfl, fun h => absurd (h.all_served rfl rfl rfl) (by decide)⟩

end EvtDrivenOs.Sound
