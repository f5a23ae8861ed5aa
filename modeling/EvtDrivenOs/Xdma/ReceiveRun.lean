/-
Runs of the receive queue in whole steps.

A step is either a completion by the engine with the handler right after it, or a
call of `_ethdma_rxsgcmplt` whose buffer takes the oldest waiting frame.  Over
every run the queue is a queue of capacity nine that gives up its oldest frame
when it overflows: `RxCorrect` lists what this means for the indices, the
counters, the frames returned and the frames lost.
-/
import EvtDrivenOs.Lib.Run
import EvtDrivenOs.Xdma.ReceiveQueue

namespace EvtDrivenOs.Xdma

open EvtDrivenOs.Lib

/-- The steps of the receive side. -/
inductive RxEvent
  | receive (frame : Frame)
  | read (memLen : UInt32)

/-- What an event does. -/
def rxStep (t : RxSys) : RxEvent → RxSys
  | .receive frame => t.receive frame
  | .read memLen => t.read memLen

/-- The caller's buffer takes the oldest waiting frame. -/
def RxSys.fits (t : RxSys) (memLen : UInt32) : Prop :=
  ∀ i ∈ t.waiting.head?, (t.frame i).length ≤ memLen.toNat

instance (t : RxSys) (memLen : UInt32) : Decidable (t.fits memLen) :=
  decidable_of_iff (t.waiting.head?.all fun i => decide ((t.frame i).length ≤ memLen.toNat))
    (by unfold RxSys.fits; cases t.waiting.head? <;> simp)

/-- Frames are arbitrary; a call of the reader brings a buffer of sufficient length. -/
def rxOk (t : RxSys) : RxEvent → Prop
  | .receive _ => True
  | .read memLen => t.fits memLen

instance (t : RxSys) (e : RxEvent) : Decidable (rxOk t e) :=
  match e with
  | .receive _ => isTrue trivial
  | .read memLen => inferInstanceAs (Decidable (t.fits memLen))

/-- What holds after every run of whole steps that started from the driver state `s₀`. -/
structure RxCorrect (s₀ : State) (t : RxSys) : Prop where
  head_lt : t.drv.ethRxhead.toNat < 10
  tail_lt : t.drv.ethRxtail.toNat < 10
  /-- `rxcount` and `lostcount` count the frames received and the frames lost. -/
  rxcount : t.drv.rxcount = s₀.rxcount + UInt32.ofNat t.arrived.length
  lostcount : t.drv.lostcount = s₀.lostcount + UInt32.ofNat t.lost.length
  /-- The occupancy is what was counted since the start, less what was returned. -/
  count : ethRxqcount t.drv = (t.drv.rxcount - s₀.rxcount) - (t.drv.lostcount - s₀.lostcount)
    - UInt32.ofNat t.delivered.length
  /-- After a boot both counters start at zero. -/
  count_boot : s₀.rxcount = 0 → s₀.lostcount = 0 →
    ethRxqcount t.drv = t.drv.rxcount - t.drv.lostcount - UInt32.ofNat t.delivered.length
  count_le : (ethRxqcount t.drv).toNat ≤ 9
  count_waiting : (ethRxqcount t.drv).toNat = t.waiting.length
  /-- A call returns `NULL` exactly when no frame waits. -/
  null_iff : ∀ memLen, t.fits memLen →
    ((ethdmaRxsgcmplt t.drv memLen).1 = none ↔ t.waiting = [])
  /-- A call that returns a frame returns the oldest one that waits, with its bytes
  and its length. -/
  returns : ∀ memLen f, (ethdmaRxsgcmplt t.drv memLen).1 = some f →
    ∃ i, t.waiting.head? = some i ∧ (t.read memLen).delivered = t.delivered ++ [(i, f)] ∧
      f.mem = t.frame i ∧ f.transLen = (t.frame i).length
  /-- The frames returned came in the order of arrival, each once. -/
  delivered_order : (t.delivered.map Prod.fst).Pairwise (· < ·)
  /-- Each frame returned is one that was received and not lost, with its bytes and its length. -/
  delivered_data : ∀ d ∈ t.delivered, d.1 < t.arrived.length ∧ d.1 ∉ t.lost ∧
    d.2.mem = t.frame d.1 ∧ d.2.transLen = (t.frame d.1).length
  /-- A frame received is lost, returned, or one of those that wait. -/
  complete : ∀ i < t.arrived.length,
    (i ∉ t.lost ↔ i ∈ t.delivered.map Prod.fst ∨ i ∈ t.waiting)
  /-- A frame counted as lost is the oldest one that waits. -/
  loses_oldest : ∀ f, (t.receive f).lost = t.lost ∧
      (t.receive f).drv.lostcount = t.drv.lostcount ∨
    ∃ i, t.waiting.head? = some i ∧ (t.receive f).lost = t.lost ++ [i] ∧
      (t.receive f).drv.lostcount = t.drv.lostcount + 1

variable {chunk : ℕ} {s₀ : State} {t : RxSys}

namespace RxInv

lemma waiting_head? (h : RxInv chunk s₀ none 0 t) (hlt : t.next < t.arrived.length) :
    t.waiting.head? = some t.next := by
  have := h.ledger.waiting_head? (by rw [RxSys.ledger_next]; exact hlt)
  rwa [RxSys.ledger_next] at this

lemma waiting_eq_nil_iff (h : RxInv chunk s₀ none 0 t) :
    t.waiting = [] ↔ t.next = t.arrived.length := by
  have := h.ledger.waiting_eq_nil_iff
  rwa [RxSys.ledger_next] at this

lemma waiting_length (h : RxInv chunk s₀ none 0 t) :
    t.waiting.length = t.arrived.length - t.next := by
  have := h.ledger.waiting_length
  rwa [RxSys.ledger_next] at this

lemma count_toNat (h : RxInv chunk s₀ none 0 t) :
    (ethRxqcount t.drv).toNat = t.arrived.length - t.next :=
  ethRxqcount_toNat h.head h.tail h.next_le h.bound

/-- The occupancy in terms of the counters. -/
lemma count_eq (h : RxInv chunk s₀ none 0 t) :
    ethRxqcount t.drv = (t.drv.rxcount - s₀.rxcount) - (t.drv.lostcount - s₀.lostcount)
      - UInt32.ofNat t.delivered.length := by
  have hle := h.next_le
  have hsum : t.arrived.length
      = (t.arrived.length - t.next) + t.lost.length + t.delivered.length := by
    simp only [RxSys.next] at hle ⊢
    omega
  have hnum : ethRxqcount t.drv = UInt32.ofNat (t.arrived.length - t.next) := by
    rw [← h.count_toNat, UInt32.ofNat_toNat]
  rw [hnum, h.rxcount, h.lostcount, Nat.sub_zero, hsum]
  simp only [UInt32.ofNat_add]
  grind

lemma null_iff (h : RxInv chunk s₀ none 0 t) {memLen : UInt32} (hfits : t.fits memLen) :
    (ethdmaRxsgcmplt t.drv memLen).1 = none ↔ t.waiting = [] := by
  have hle := h.next_le
  rw [h.ethdmaRxsgcmplt_eq, h.waiting_eq_nil_iff]
  by_cases hlt : t.next < t.arrived.length
  · have := hfits t.next (h.waiting_head? hlt)
    rw [if_pos ⟨hlt, this⟩]
    simp only [reduceCtorEq, false_iff]
    omega
  · rw [if_neg (fun hc => hlt hc.1)]
    simp only [true_iff]
    omega

lemma returns (h : RxInv chunk s₀ none 0 t) {memLen : UInt32} {f : RxFrame}
    (hf : (ethdmaRxsgcmplt t.drv memLen).1 = some f) :
    ∃ i, t.waiting.head? = some i ∧ (t.read memLen).delivered = t.delivered ++ [(i, f)] ∧
      f.mem = t.frame i ∧ f.transLen = (t.frame i).length := by
  rw [h.ethdmaRxsgcmplt_eq] at hf
  split at hf
  · next hc =>
    obtain rfl := Option.some.inj hf
    refine ⟨t.next, h.waiting_head? hc.1, ?_, rfl, rfl⟩
    rw [h.read_eq, if_pos hc]
  · simp at hf

lemma loses_oldest (h : RxInv chunk s₀ none 0 t) (f : Frame) :
    (t.receive f).lost = t.lost ∧ (t.receive f).drv.lostcount = t.drv.lostcount ∨
      ∃ i, t.waiting.head? = some i ∧ (t.receive f).lost = t.lost ++ [i] ∧
        (t.receive f).drv.lostcount = t.drv.lostcount + 1 := by
  have hcount := (h.receive f).lostcount
  rw [h.receive_lost] at hcount ⊢
  by_cases hfull : t.arrived.length = t.next + 9
  · right
    rw [if_pos hfull] at hcount ⊢
    refine ⟨t.next, h.waiting_head? (by omega), rfl, ?_⟩
    rw [hcount, h.lostcount, List.length_append, List.length_singleton, UInt32.ofNat_add,
      UInt32.add_assoc]
    rfl
  · left
    rw [if_neg hfull] at hcount ⊢
    exact ⟨rfl, hcount.trans h.lostcount.symm⟩

lemma correct (h : RxInv chunk s₀ none 0 t) : RxCorrect s₀ t where
  head_lt := by rw [h.head]; exact Nat.mod_lt _ (by decide)
  tail_lt := by rw [h.tail]; exact Nat.mod_lt _ (by decide)
  rxcount := h.rxcount
  lostcount := h.lostcount
  count := h.count_eq
  count_boot hrx hlost := by
    rw [h.count_eq, hrx, hlost, UInt32.sub_zero, UInt32.sub_zero]
  count_le := by
    have := h.bound
    rw [h.count_toNat]
    omega
  count_waiting := by rw [h.count_toNat, h.waiting_length]
  null_iff _ hfits := h.null_iff hfits
  returns _ _ hf := h.returns hf
  delivered_order := h.ledger.taken_sorted
  delivered_data d hd := by
    have hmem : d.1 ∈ t.delivered.map Prod.fst := List.mem_map_of_mem hd
    have := h.delivered_lt hd
    have := h.next_le
    exact ⟨by omega, fun hlost => h.ledger.disjoint _ hlost hmem, h.returned d hd⟩
  complete i hi := by
    have hdisj := h.ledger.disjoint i
    simp only [RxSys.ledger] at hdisj
    have hwait : i ∈ t.waiting ↔ i ∉ t.lost ∧ i ∉ t.delivered.map Prod.fst := by
      simp only [RxSys.waiting, Ledger.waiting, RxSys.ledger, Nat.sub_zero, List.mem_filter,
        List.mem_range, hi, true_and]
      exact decide_eq_true_iff
    rw [hwait]
    tauto
  loses_oldest := h.loses_oldest

lemma step (h : RxInv chunk s₀ none 0 t) (e : RxEvent) : RxInv chunk s₀ none 0 (rxStep t e) := by
  cases e with
  | receive frame => exact h.receive frame
  | read memLen => exact h.read memLen

end RxInv

/-- **The receive queue over whole runs.**  From a successful `_ethdma_rxsgcyclic`
with ten descriptors, every run of receptions and reads keeps `RxCorrect`. -/
theorem rxRun_correct {s₁ : State} {allocLen ioBuff : UInt32} {buf : ℕ} {evs : List RxEvent}
    (hstart : ethdmaRxsgcyclic s₀ allocLen ioBuff = .ok (some buf, s₁))
    (hten : allocLen.toNat / ioBuff.toNat = 10)
    (hevs : Admissible rxStep rxOk { drv := s₁ } evs) :
    RxCorrect s₀ (run rxStep { drv := s₁ } evs) :=
  (hevs.invariant (fun _ e h _ => h.step e) (RxInv.start hstart hten)).correct

/-- The driver after `_xtemac_start` has set up the receive ring. -/
def rxBoot : State :=
  match ethdmaRxsgcyclic {} 15360 1536 with
  | .ok (_, s) => s
  | .error _ => {}

lemma rxBoot_eq : ethdmaRxsgcyclic {} 15360 1536 = .ok (some xdma2S2mmBuffer, rxBoot) := rfl

theorem rxRun_correct_boot :
    RxCorrect {} (run rxStep { drv := rxBoot } [.receive [1, 2, 3], .read 1536]) :=
  rxRun_correct rxBoot_eq (by decide) (by decide)

end EvtDrivenOs.Xdma
