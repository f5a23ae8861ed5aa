/-
The link output function of the network interface, `lwip_ethOutput` of `netdev.c`.

lwIP hands over a packet as a chain of buffers.  `lwip_ethOutput` queues each
buffer of the chain on its own, and every descriptor of the transmit queue is a
whole frame.  So a packet is sent as one frame, or not at all, exactly when its
chain is a single buffer or when its first buffer is refused.
-/
import EvtDrivenOs.Xdma.TransmitRun

namespace EvtDrivenOs.Netdev

open EvtDrivenOs.Lib EvtDrivenOs.Xdma

/-- The results of the output function among lwIP's error codes. -/
inductive ErrT
  | errOk
  | errIf
deriving DecidableEq, Repr

/-- Queues the payloads of the chain one after the other, up to the first refusal. -/
def lwipEthOutput (s : State) : List Frame → ErrT × State
  | [] => (.errOk, s)
  | q :: p =>
    match ethdmaTxsgenque s q with
    | (none, s') => (.errIf, s')
    | (some _, s') => lwipEthOutput s' p

/-- The frames in the open transmit queue; a locked queue holds none for the caller. -/
def txQueued (s : State) : List Frame :=
  if s.ethTxtail = 0xFF then [] else (List.range s.ethTxtail.toNat).map fun i => bdFrame s (txBd i)

/-- The packet `p` becomes exactly one frame of the queue, or the queue stays as it is. -/
structure OneFrame (s : State) (p : List Frame) : Prop where
  /-- A success queues the bytes of the packet as one frame. -/
  sent : (lwipEthOutput s p).1 = .errOk →
    txQueued (lwipEthOutput s p).2 = txQueued s ++ [p.flatten]
  /-- A failure leaves the queue as it was. -/
  kept : (lwipEthOutput s p).1 ≠ .errOk →
    (lwipEthOutput s p).2.ethTxtail = s.ethTxtail ∧ (lwipEthOutput s p).2.bd = s.bd ∧
      txQueued (lwipEthOutput s p).2 = txQueued s

/-! ### The states of the transmit queue -/

/-- What holds of the transmit queue at any time, whatever the engine does. -/
structure TxReady (chunk : ℕ) (s : State) : Prop where
  layout : TxLayout chunk s
  tail : s.ethTxtail.toNat ≤ 9 ∨ s.ethTxtail = 0xFF
  short : ∀ i < 10, (s.bd (txBd i)).control.bufferLen.toNat ≤ chunk

/-- The frames given to the transmit side have at most 65535 bytes. -/
def txShort (_ : TxSys) : TxEvent → Prop
  | .enque mem => mem.length ≤ 65535
  | .flush => True
  | .send _ => True
  | .irq => True

instance (t : TxSys) (e : TxEvent) : Decidable (txShort t e) :=
  match e with
  | .enque mem => inferInstanceAs (Decidable (mem.length ≤ 65535))
  | .flush => isTrue trivial
  | .send _ => isTrue trivial
  | .irq => isTrue trivial

namespace TxReady

variable {chunk : ℕ} {s : State}

/-- An accepted frame comes behind those that were queued before. -/
lemma enque_some (h : TxReady chunk s) {mem : Frame} (hmem : mem.length ≤ 65535) {b : ℕ}
    {s' : State} (hb : ethdmaTxsgenque s mem = (some b, s')) :
    s.ethTxtail.toNat < 9 ∧ mem.length < chunk ∧ TxReady chunk s' ∧
      s'.ethTxtail.toNat = s.ethTxtail.toNat + 1 ∧ txQueued s' = txQueued s ++ [mem] := by
  rcases h.tail with htail | hlock
  · have hchunk := h.layout.chunk_le
    have heq := h.layout.enque_eq htail hmem
    rw [hb] at heq
    split_ifs at heq with hc
    · obtain ⟨hlt, hlen⟩ := hc
      simp only [Prod.mk.injEq] at heq
      obtain ⟨-, rfl⟩ := heq
      have hnew : (BitVec.ofNat 26 mem.length).toNat = mem.length := by
        rw [BitVec.toNat_ofNat, Nat.mod_eq_of_lt (by omega)]
      have hstep : (s.ethTxtail + 1).toNat = s.ethTxtail.toNat + 1 := by
        rw [UInt8.toNat_add, UInt8.toNat_one]
        omega
      have hopen : ∀ {q : UInt8}, q.toNat ≤ 9 → q ≠ 0xFF := by
        rintro q hq rfl
        exact absurd hq (by decide)
      refine ⟨hlt, hlen, ⟨⟨hchunk, ?_, h.layout.depth⟩, Or.inl ?_, fun i hi => ?_⟩, hstep, ?_⟩
      · exact h.layout.ring.update _ _ rfl rfl
      · show (s.ethTxtail + 1).toNat ≤ 9
        omega
      · simp only [Function.update_apply, txBd_inj]
        split
        · rw [hnew]
          exact hlen.le
        · exact h.short i hi
      · rw [txQueued, txQueued, if_neg (hopen (q := s.ethTxtail + 1) (by omega)),
          if_neg (hopen htail), hstep, List.range_succ, List.map_append, List.map_singleton]
        congr 1
        · -- the frames before it lie in other chunks
          refine List.map_congr_left fun i hi => ?_
          have hi := List.mem_range.1 hi
          have hne : i ≠ s.ethTxtail.toNat := by omega
          have hdisj := chunk_disjoint (c := chunk) xdma2Mm2sBuffer hne
          have hshort := h.short i (by omega)
          simp only [bdFrame, Function.update_apply, txBd_inj, if_neg hne]
          rw [h.layout.buffer (by omega), load_store_of_disjoint (by omega)]
        · have hbuf : (s.bd (txBd s.ethTxtail.toNat)).clearStatus.buffer =
              xdma2Mm2sBuffer + chunk * s.ethTxtail.toNat := h.layout.buffer (by omega)
          simp only [bdFrame, Function.update_self, hnew, hbuf, load_store]
    · simp at heq
  · rw [enque_of_locked hlock] at hb
    simp at hb

/-- When a frame is refused. -/
lemma enque_none_iff (h : TxReady chunk s) {mem : Frame} (hmem : mem.length ≤ 65535) :
    (ethdmaTxsgenque s mem).1 = none ↔
      s.ethTxtail = 0xFF ∨ s.ethTxtail.toNat = 9 ∨ chunk ≤ mem.length := by
  rcases h.tail with htail | hlock
  · have hopen : s.ethTxtail ≠ 0xFF := fun heq => absurd (heq ▸ htail) (by decide)
    rw [h.layout.enque_eq htail hmem]
    split_ifs with hc
    · simp only [false_iff, not_or]
      exact ⟨hopen, by omega, by omega⟩
    · simp only [true_iff]
      right
      omega
  · simp [enque_of_locked hlock, hlock]

/-- The loop only ever adds frames, and on success as many as the chain has buffers. -/
lemma lwipEthOutput_tail (h : TxReady chunk s) {p : List Frame}
    (hp : ∀ q ∈ p, q.length ≤ 65535) (htail : s.ethTxtail.toNat ≤ 9) :
    s.ethTxtail.toNat ≤ (lwipEthOutput s p).2.ethTxtail.toNat ∧
      (lwipEthOutput s p).2.ethTxtail.toNat ≤ 9 ∧
      ((lwipEthOutput s p).1 = .errOk →
        (lwipEthOutput s p).2.ethTxtail.toNat = s.ethTxtail.toNat + p.length) := by
  induction p generalizing s with
  | nil => exact ⟨le_rfl, htail, fun _ => rfl⟩
  | cons q p ih =>
    rcases hq : ethdmaTxsgenque s q with ⟨_ | b, s'⟩
    · simp only [lwipEthOutput, hq, enque_none hq]
      exact ⟨le_rfl, htail, by simp⟩
    · obtain ⟨hlt, -, hready, hstep, -⟩ := h.enque_some (hp q List.mem_cons_self) hq
      obtain ⟨hle, hle', hok⟩ := ih hready (fun r hr => hp r (List.mem_cons_of_mem q hr)) (by omega)
      simp only [lwipEthOutput, hq]
      refine ⟨by omega, hle', fun he => ?_⟩
      rw [hok he, hstep, List.length_cons]
      omega

/-- **One packet, one frame.**  The output function keeps the packet together exactly for
a single buffer, and when the first buffer is refused. -/
lemma oneFrame_iff (h : TxReady chunk s) {q : Frame} {p : List Frame}
    (hp : ∀ r ∈ q :: p, r.length ≤ 65535) :
    OneFrame s (q :: p) ↔
      p = [] ∨ s.ethTxtail = 0xFF ∨ s.ethTxtail.toNat = 9 ∨ chunk ≤ q.length := by
  rw [← h.enque_none_iff (hp q List.mem_cons_self)]
  rcases hq : ethdmaTxsgenque s q with ⟨_ | b, s'⟩
  · -- the first buffer is refused, and nothing has happened
    have hout : lwipEthOutput s (q :: p) = (.errIf, s) := by
      simp only [lwipEthOutput, hq, enque_none hq]
    refine iff_of_true ⟨fun hok => ?_, fun _ => ?_⟩ (Or.inr rfl)
    · rw [hout] at hok
      simp at hok
    · rw [hout]
      exact ⟨rfl, rfl, rfl⟩
  · obtain ⟨hlt, -, hready, hstep, hqueued⟩ := h.enque_some (hp q List.mem_cons_self) hq
    have hout : lwipEthOutput s (q :: p) = lwipEthOutput s' p := by simp only [lwipEthOutput, hq]
    simp only [reduceCtorEq, or_false]
    constructor
    · intro hone
      by_contra hne
      -- each buffer of the chain becomes a frame, so the tail moves by more than one
      have hpos : 0 < p.length := List.length_pos_iff.2 hne
      obtain ⟨hle, hle', hlen⟩ := hready.lwipEthOutput_tail
        (fun r hr => hp r (List.mem_cons_of_mem q hr)) (by omega)
      have hopen : ∀ {u : UInt8}, u.toNat ≤ 9 → u ≠ 0xFF := by
        rintro u hu rfl
        exact absurd hu (by decide)
      have hcount : ∀ {u : State}, u.ethTxtail.toNat ≤ 9 →
          (txQueued u).length = u.ethTxtail.toNat := fun hu => by
        rw [txQueued, if_neg (hopen hu), List.length_map, List.length_range]
      rcases Decidable.em ((lwipEthOutput s (q :: p)).1 = .errOk) with hok | herr
      · have hone' := congrArg List.length (hone.sent hok)
        rw [hout] at hok hone'
        rw [hcount hle', List.length_append, List.length_singleton, hcount (by omega),
          hlen hok] at hone'
        omega
      · have hkept := congrArg UInt8.toNat (hone.kept herr).1
        rw [hout] at hkept
        omega
    · rintro rfl
      refine ⟨fun _ => ?_, fun herr => ?_⟩
      · rw [hout]
        simpa [lwipEthOutput] using hqueued
      · rw [hout] at herr
        exact absurd rfl herr

/-! ### Reachable states -/

lemma flush (h : TxReady chunk s) : TxReady chunk (ethdmaTxsgflush s) := by
  simp only [ethdmaTxsgflush]
  split
  · exact h
  · exact ⟨⟨h.layout.chunk_le, h.layout.ring, h.layout.depth⟩, Or.inr rfl, h.short⟩

lemma send (h : TxReady chunk s) (ioc : Bool) : TxReady chunk (mm2sSend s ioc) := by
  refine ⟨⟨h.layout.chunk_le, h.layout.ring.update _ _ rfl rfl, h.layout.depth⟩, h.tail,
    fun i hi => ?_⟩
  simp only [mm2sSend, Function.update_apply]
  split
  · next heq =>
    rw [← heq]
    exact h.short i hi
  · exact h.short i hi

lemma irq (h : TxReady chunk s) : TxReady chunk (onethdmaTxirq s) := by
  refine ⟨⟨h.layout.chunk_le, h.layout.ring, h.layout.depth⟩, ?_, h.short⟩
  simp only [onethdmaTxirq]
  split
  · exact Or.inl (Nat.zero_le _)
  · exact h.tail

lemma start {s₀ s₁ : State} {allocLen ioBuff : UInt32} {buf : ℕ}
    (hstart : ethdmaTxsgnormal s₀ allocLen ioBuff = .ok (some buf, s₁))
    (hten : allocLen.toNat / ioBuff.toNat = 10) : TxReady ioBuff.toNat s₁ := by
  obtain ⟨hlayout, hchunk, htail, -⟩ := ethdmaTxsgnormal_ok hstart hten
  refine ⟨hlayout, Or.inl ?_, fun i hi => (hchunk i hi).le⟩
  rw [htail]
  exact Nat.zero_le _

/-- Every step of the transmit side, in any order. -/
lemma step {t : TxSys} (h : TxReady chunk t.drv) {e : TxEvent} (he : txShort t e) :
    TxReady chunk (txStep t e).drv := by
  cases e with
  | enque mem =>
    rcases hq : ethdmaTxsgenque t.drv mem with ⟨_ | b, s'⟩
    · simpa only [txStep, TxSys.enque, hq, enque_none hq] using h
    · simpa only [txStep, TxSys.enque, hq] using (h.enque_some he hq).2.2.1
  | flush => exact h.flush
  | send ioc => exact h.send ioc
  | irq => exact h.irq

end TxReady

/-- **The output function in every state of the queue.**  After any run of the transmit
side, a packet is sent as one frame or not at all exactly when its chain is a single
buffer or its first buffer is refused: the queue is locked or full, or the buffer does
not fit a chunk. -/
theorem lwipEthOutput_oneFrame_iff {s₀ s₁ : State} {allocLen ioBuff : UInt32} {buf : ℕ}
    {evs : List TxEvent} {p : List Frame}
    (hstart : ethdmaTxsgnormal s₀ allocLen ioBuff = .ok (some buf, s₁))
    (hten : allocLen.toNat / ioBuff.toNat = 10)
    (hevs : Admissible txStep txShort { drv := s₁ } evs) (hpos : 1 ≤ p.flatten.length)
    (hlen : p.flatten.length ≤ 1514) :
    OneFrame (run txStep { drv := s₁ } evs).drv p ↔
      p.length = 1 ∨ (run txStep { drv := s₁ } evs).drv.ethTxtail = 0xFF ∨
        (run txStep { drv := s₁ } evs).drv.ethTxtail.toNat = 9 ∨
        ioBuff.toNat ≤ (p.headD []).length := by
  have hready : TxReady ioBuff.toNat (run txStep { drv := s₁ } evs).drv :=
    hevs.invariant (fun _ _ h he => TxReady.step h he) (TxReady.start hstart hten)
  cases p with
  | nil => simp at hpos
  | cons q p =>
    rw [hready.oneFrame_iff fun r hr => ?_]
    · simp
    · have := List.Sublist.length_le (List.sublist_flatten_of_mem hr)
      omega

theorem lwipEthOutput_oneFrame_iff_boot :
    OneFrame (run txStep { drv := txBoot } [.enque [1], .flush]).drv [[2], [3]] ↔
      [[2], [3]].length = 1 ∨
        (run txStep { drv := txBoot } [.enque [1], .flush]).drv.ethTxtail = 0xFF ∨
        (run txStep { drv := txBoot } [.enque [1], .flush]).drv.ethTxtail.toNat = 9 ∨
        (1536 : UInt32).toNat ≤ ([[2], [3]].headD ([] : Frame)).length :=
  lwipEthOutput_oneFrame_iff txBoot_eq (by decide) (by decide) (by decide) (by decide)

/-- A packet of two buffers becomes two frames. -/
theorem lwipEthOutput_two : ¬ OneFrame txBoot [[1, 2], [3]] :=
  fun h => absurd (h.sent rfl) (by decide)

end EvtDrivenOs.Netdev
