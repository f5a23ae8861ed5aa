/-
The reader of the receive queue under interrupts.

`_ethdma_rxsgcmplt` does not mask the receive interrupt, and the handler moves
the tail when the queue overflows.  `RxSys.readPreempted` is the reader with
receptions at each point between its accesses to the shared state: it works with
the head and the tail it read at the start, and stores the tail that follows the
one it read.

The store is right as long as the tail has not moved.  It is also right when the
tail has moved by whole turns of the ring and the frame that was read is the
oldest one in the end.  In every other case the books of the queue are wrong
after the call; `RxInv.accounted_readPreempted_iff` makes this exact.
-/
import EvtDrivenOs.Xdma.ReceiveRun

namespace EvtDrivenOs.Xdma

open EvtDrivenOs.Lib

/-! ### The call with receptions in between -/

/-- The frames received during a call of the reader, by the access they precede. -/
structure RxWindow where
  beforeTailRead : List Frame := []
  beforeCmplt : List Frame := []
  beforeLen : List Frame := []
  beforeRelease : List Frame := []
  beforeCopy : List Frame := []
  beforeTailStore : List Frame := []
deriving DecidableEq, Repr

namespace RxWindow

variable (w : RxWindow)

/-- The receptions after the length of the frame was read. -/
def afterLen : ℕ :=
  w.beforeRelease.length + w.beforeCopy.length + w.beforeTailStore.length

/-- The receptions between the read of the tail and the store of the new tail. -/
def afterTail : ℕ := w.beforeCmplt.length + w.beforeLen.length + w.afterLen

lemma afterLen_le : w.afterLen ≤ w.afterTail := Nat.le_add_left _ _

end RxWindow

namespace RxSys

/-- Receptions one after the other. -/
def receives (t : RxSys) (fs : List Frame) : RxSys := fs.foldl receive t

/-- A call of `_ethdma_rxsgcmplt` during which the frames of `w` are received.  The
frame returned is identified by what its descriptor holds when the length is read. -/
def readPreempted (t : RxSys) (memLen : UInt32) (w : RxWindow) : RxSys :=
  let head := t.drv.ethRxhead
  let t := t.receives w.beforeTailRead
  let tail := t.drv.ethRxtail
  if head = tail then t
  else
    let bdDesc := rxBd tail.toNat
    let t := t.receives w.beforeCmplt
    if !(t.drv.bd bdDesc).status.cmplt then t
    else
      let bdBuffer := (t.drv.bd bdDesc).buffer
      let t := t.receives w.beforeLen
      let bdTranslen := (t.drv.bd bdDesc).status.transLen.toNat
      let num := t.stamp bdDesc
      if bdTranslen > memLen.toNat then t
      else
        let t := t.receives w.beforeRelease
        let t := { t with drv := rxsgRelease t.drv bdDesc }
        let t := t.receives w.beforeCopy
        let mem := load t.drv.ram bdBuffer bdTranslen
        let t := t.receives w.beforeTailStore
        { t with
          drv := rxsgAdvance t.drv tail
          delivered := t.delivered ++ [(num, ⟨bdBuffer, bdTranslen, mem⟩)] }

/-- Without receptions in between this is the reader as one step. -/
lemma readPreempted_empty (t : RxSys) (memLen : UInt32) :
    t.readPreempted memLen {} = t.read memLen := by
  by_cases hempty : t.drv.ethRxhead = t.drv.ethRxtail
  · simp [readPreempted, receives, read, ethdmaRxsgcmplt, hempty]
  · by_cases hcmplt : (t.drv.bd (rxBd t.drv.ethRxtail.toNat)).status.cmplt = true
    · by_cases hlong :
        (t.drv.bd (rxBd t.drv.ethRxtail.toNat)).status.transLen.toNat > memLen.toNat
      · simp [readPreempted, receives, read, ethdmaRxsgcmplt, hempty, hcmplt, hlong]
      · simp [readPreempted, receives, read, ethdmaRxsgcmplt, hempty, hcmplt, hlong]
    · simp [readPreempted, receives, read, ethdmaRxsgcmplt, hempty, hcmplt]

/-- The frame that the descriptor at the tail holds when the call reads its length. -/
def frameSeen (t : RxSys) (w : RxWindow) : Frame :=
  let t₀ := t.receives w.beforeTailRead
  let t₁ := (t₀.receives w.beforeCmplt).receives w.beforeLen
  t₁.frame (t₁.stamp (rxBd t₀.drv.ethRxtail.toNat))

/-- The receptions `w` do no harm: the call stores nothing because it sees an empty
queue or too long a frame, or the queue does not overflow until the tail is stored,
or it overflows a multiple of ten times and the frame read is still there. -/
def Harmless (t : RxSys) (memLen : UInt32) (w : RxWindow) : Prop :=
  let t₀ := t.receives w.beforeTailRead
  t.drv.ethRxhead = t₀.drv.ethRxtail ∨ memLen.toNat < (t.frameSeen w).length ∨
    t₀.waiting.length + w.afterTail ≤ 9 ∨
    (t₀.waiting.length + w.afterTail) % 10 = 9 ∧ w.afterLen ≤ 8

instance (t : RxSys) (memLen : UInt32) (w : RxWindow) : Decidable (t.Harmless memLen w) := by
  unfold Harmless
  infer_instance

end RxSys

/-- The books of the queue: the occupancy agrees with the counters, no frame is both
lost and delivered, and a queue that looks empty is empty. -/
structure RxAccounted (s₀ : State) (t : RxSys) : Prop where
  /-- The occupancy is what was counted since the start, less what was returned. -/
  count : ethRxqcount t.drv = (t.drv.rxcount - s₀.rxcount) - (t.drv.lostcount - s₀.lostcount)
    - UInt32.ofNat t.delivered.length
  /-- No frame is both returned and counted as lost. -/
  disjoint : ∀ d ∈ t.delivered, d.1 ∉ t.lost
  /-- Where the indices meet no frame waits. -/
  empty : t.drv.ethRxhead = t.drv.ethRxtail → t.waiting = []

namespace RxInv

variable {chunk p : ℕ} {s₀ : State} {held : Option ℕ} {t : RxSys}

/-! ### Several receptions -/

lemma receives (h : RxInv chunk s₀ held 0 t) (fs : List Frame) :
    RxInv chunk s₀ held 0 (t.receives fs) := by
  induction fs generalizing t with
  | nil => exact h
  | cons f fs ih => exact ih (h.receive f)

end RxInv

namespace RxSys

variable (t : RxSys)

@[simp] lemma receives_arrived_length (fs : List Frame) :
    (t.receives fs).arrived.length = t.arrived.length + fs.length := by
  induction fs generalizing t with
  | nil => rfl
  | cons f fs ih =>
    show ((t.receive f).receives fs).arrived.length = _
    rw [ih]
    simp only [receive, irq_arrived, complete_arrived, List.length_append, List.length_cons,
      List.length_nil]
    omega

@[simp] lemma receives_delivered (fs : List Frame) :
    (t.receives fs).delivered = t.delivered := by
  induction fs generalizing t with
  | nil => rfl
  | cons f fs ih => exact ih (t.receive f)

/-- Frames that arrived before stay what they were. -/
lemma frame_receives {i : ℕ} (fs : List Frame) (hi : i < t.arrived.length) :
    (t.receives fs).frame i = t.frame i := by
  induction fs generalizing t with
  | nil => rfl
  | cons f fs ih =>
    have hlt : i < (t.receive f).arrived.length := by
      simp only [receive, irq_arrived, complete_arrived, List.length_append]
      omega
    exact (ih (t.receive f) hlt).trans (frame_complete_of_lt f hi)

end RxSys

namespace RxInv

variable {chunk p : ℕ} {s₀ : State} {held : Option ℕ} {t : RxSys}

/-- Every reception beyond the ninth waiting frame removes the oldest one. -/
lemma receives_next (h : RxInv chunk s₀ held 0 t) (fs : List Frame) :
    (t.receives fs).next = max t.next (t.arrived.length + fs.length - 9) := by
  have hbound := h.bound
  induction fs generalizing t with
  | nil =>
    simp only [RxSys.receives, List.foldl_nil, List.length_nil]
    omega
  | cons f fs ih =>
    have hlen : (t.receive f).arrived.length = t.arrived.length + 1 := by
      simp [RxSys.receive]
    have hstep := ih (h.receive f) (h.receive f).bound
    have hnext := h.receive_next f
    show ((t.receive f).receives fs).next = _
    rw [hstep, hnext, hlen, List.length_cons]
    split <;> omega

/-- The descriptor of a slot holds the newest frame stored there. -/
lemma stamp_newest (h : RxInv chunk s₀ held p t) {r : ℕ} (hr : r < t.arrived.length) :
    t.stamp (rxBd (r % 10)) = newest 10 r t.arrived.length := by
  have := h.stamp _ (newest_lt (N := 10) hr) (le_newest_add (by decide) hr)
  rwa [newest_mod] at this

/-- Its status reports this frame, when it is newer than all frames delivered. -/
lemma status_newest (h : RxInv chunk s₀ none p t) {r : ℕ} (hr : r < t.arrived.length)
    (hdel : ∀ d ∈ t.delivered, d.1 < r) :
    (t.drv.bd (rxBd (r % 10))).status.cmplt = true ∧
      (t.drv.bd (rxBd (r % 10))).status.transLen.toNat =
        (t.frame (newest 10 r t.arrived.length)).length := by
  have hle := le_newest 10 r t.arrived.length
  have := h.status _ (newest_lt (N := 10) hr) (le_newest_add (by decide) hr)
    (fun d hd => by have := hdel d hd; omega) (by simp)
  rwa [newest_mod] at this

end RxInv

/-! ### The phases of a call that stores the tail -/

/-- The state at the copy, for a call that found in `t` a frame of acceptable length
in the descriptor at `bdDesc`. -/
def RxSys.atCopy (t : RxSys) (bdDesc : ℕ) (w : RxWindow) : RxSys :=
  let t := t.receives w.beforeRelease
  RxSys.receives { t with drv := rxsgRelease t.drv bdDesc } w.beforeCopy

/-- The state at the store of the tail, for such a call. -/
def RxSys.atStore (t : RxSys) (bdDesc : ℕ) (w : RxWindow) : RxSys :=
  (t.atCopy bdDesc w).receives w.beforeTailStore

@[simp] lemma RxSys.atCopy_arrived_length (t : RxSys) (bdDesc : ℕ) (w : RxWindow) :
    (t.atCopy bdDesc w).arrived.length =
      t.arrived.length + w.beforeRelease.length + w.beforeCopy.length := by
  rw [atCopy, receives_arrived_length, receives_arrived_length]

lemma RxSys.frame_atCopy (t : RxSys) (bdDesc : ℕ) (w : RxWindow) {i : ℕ}
    (hi : i < t.arrived.length) : (t.atCopy bdDesc w).frame i = t.frame i := by
  rw [atCopy, frame_receives _ _ (by rw [receives_arrived_length]; omega)]
  exact t.frame_receives _ hi

namespace RxInv

variable {chunk p : ℕ} {s₀ : State} {held : Option ℕ} {t : RxSys}

/-- The call hands back the newest frame that lies in the slot. -/
lemma releaseSlot (h : RxInv chunk s₀ none 0 t) {r : ℕ} (hr : r < t.arrived.length) :
    RxInv chunk s₀ (some (newest 10 r t.arrived.length)) 0
      { t with drv := rxsgRelease t.drv (rxBd (r % 10)) } := by
  have := h.release (newest_lt (N := 10) hr) (le_newest_add (by decide) hr)
  rwa [newest_mod] at this

lemma atCopy (h : RxInv chunk s₀ none 0 t) {r : ℕ} (hr : r < t.arrived.length) (w : RxWindow) :
    RxInv chunk s₀ (some (newest 10 r (t.arrived.length + w.beforeRelease.length))) 0
      (t.atCopy (rxBd (r % 10)) w) := by
  have hrel := (h.receives w.beforeRelease).releaseSlot (r := r)
    (by rw [t.receives_arrived_length]; omega)
  rw [t.receives_arrived_length] at hrel
  exact hrel.receives w.beforeCopy

lemma atCopy_next (h : RxInv chunk s₀ none 0 t) {r : ℕ} (hr : r < t.arrived.length)
    (w : RxWindow) : (t.atCopy (rxBd (r % 10)) w).next =
      max t.next (t.arrived.length + w.beforeRelease.length + w.beforeCopy.length - 9) := by
  have hrel := (h.receives w.beforeRelease).releaseSlot (r := r)
    (by rw [t.receives_arrived_length]; omega)
  have hcopy := hrel.receives_next w.beforeCopy
  have hnext : RxSys.next { t.receives w.beforeRelease with
      drv := rxsgRelease (t.receives w.beforeRelease).drv (rxBd (r % 10)) }
        = max t.next (t.arrived.length + w.beforeRelease.length - 9) :=
    h.receives_next w.beforeRelease
  rw [hnext, t.receives_arrived_length, max_max_sub] at hcopy
  exact hcopy

lemma atStore (h : RxInv chunk s₀ none 0 t) {r : ℕ} (hr : r < t.arrived.length) (w : RxWindow) :
    RxInv chunk s₀ (some (newest 10 r (t.arrived.length + w.beforeRelease.length))) 0
      (t.atStore (rxBd (r % 10)) w) :=
  (h.atCopy hr w).receives w.beforeTailStore

lemma atStore_next (h : RxInv chunk s₀ none 0 t) {r : ℕ} (hr : r < t.arrived.length)
    (w : RxWindow) : (t.atStore (rxBd (r % 10)) w).next =
      max t.next (t.arrived.length + w.afterLen - 9) := by
  have hstore := (h.atCopy hr w).receives_next w.beforeTailStore
  rw [h.atCopy_next hr, RxSys.atCopy_arrived_length, max_max_sub] at hstore
  rw [RxSys.atStore, hstore, RxWindow.afterLen, Nat.add_assoc, Nat.add_assoc, Nat.add_assoc]

lemma accounted (h : RxInv chunk s₀ none 0 t) : RxAccounted s₀ t where
  count := h.count_eq
  disjoint d hd := (h.correct.delivered_data d hd).2.1
  empty heq := h.waiting_eq_nil_iff.2 (h.head_eq_tail_iff.1 heq)

/-- A store of the tail after slot `r` leaves the books in order only when the tail
still is at this slot and the frame returned was not lost. -/
lemma of_accounted_advance (h : RxInv chunk s₀ held 0 t) {r x : ℕ} {tail : UInt8}
    (htail : tail.toNat = r % 10) (hr : r ≤ t.next) (hlt : t.next < t.arrived.length)
    (hx : ∀ d ∈ t.delivered, d.1 < x) {f : RxFrame}
    (hacc : RxAccounted s₀ { t with
      drv := rxsgAdvance t.drv tail, delivered := t.delivered ++ [(x, f)] }) :
    t.next % 10 = r % 10 ∧ t.next ≤ x := by
  have hbound := h.bound
  constructor
  · have hhead := h.head
    have hnext := queueNext_toNat htail
    -- the tail that is stored, as the slot of a frame at most nine before the head
    have hslot : (queueNext tail).toNat =
        (t.arrived.length - (t.arrived.length - r + 9) % 10) % 10 := by
      rw [hnext]
      omega
    have hcount := ethRxqcount_toNat (s := rxsgAdvance t.drv tail) hhead hslot (by omega) (by omega)
    have hbook := congrArg UInt32.toNat hacc.count
    have hnum : (t.drv.rxcount - s₀.rxcount) - (t.drv.lostcount - s₀.lostcount)
        - UInt32.ofNat (t.delivered.length + 1)
          = UInt32.ofNat (t.arrived.length - t.next - 1) := by
      have hsum : t.arrived.length = (t.arrived.length - t.next - 1) + t.lost.length
          + (t.delivered.length + 1) := by
        simp only [RxSys.next] at hlt ⊢
        omega
      rw [h.rxcount, h.lostcount, Nat.sub_zero]
      generalize t.arrived.length - t.next - 1 = m at hsum ⊢
      rw [hsum]
      simp only [UInt32.ofNat_add]
      grind
    simp only [List.length_append, List.length_singleton] at hbook
    have hrx : (rxsgAdvance t.drv tail).rxcount = t.drv.rxcount := rfl
    have hlost : (rxsgAdvance t.drv tail).lostcount = t.drv.lostcount := rfl
    rw [hrx, hlost, hnum, hcount, UInt32.toNat_ofNat_of_lt' (by
      show _ < UInt32.size
      unfold UInt32.size
      omega)] at hbook
    omega
  · by_contra hlost
    -- a frame before the oldest one was lost, or delivered by an earlier call
    have hmem := (h.ledger.removed_iff x).2 (by rw [RxSys.ledger_next]; omega)
    rcases hmem with hmem | hmem
    · exact hacc.disjoint (x, f) (by simp) hmem
    · obtain ⟨d, hd, rfl⟩ := List.mem_map.1 hmem
      exact absurd (hx d hd) (lt_irrefl _)

end RxInv

/-- With `c` frames waiting and `k` receptions, the last `m` of them after the length
was read: when the tail is where it was and the frame read is not lost. -/
lemma stale_tail_iff {r n k m : ℕ} (hr : r < n) (hn : n ≤ r + 9) (hm : m ≤ k) :
    (max r (n + k - 9) % 10 = r % 10 ∧ max r (n + k - 9) ≤ newest 10 r (n + (k - m))) ↔
      n - r + k ≤ 9 ∨ (n - r + k) % 10 = 9 ∧ m ≤ 8 := by
  rcases Nat.lt_or_ge 9 (n - r + k) with hmany | hfew
  · rw [Nat.max_eq_right (by omega)]
    unfold newest
    omega
  · rw [Nat.max_eq_left (by omega)]
    exact iff_of_true ⟨rfl, le_newest 10 r _⟩ (.inl hfew)

/-- In this case the slot keeps its frame, the oldest one in the end, from the read of
the length on. -/
lemma newest_of_stale_tail {r n k m j : ℕ} (hr : r < n) (hn : n ≤ r + 9)
    (h : n - r + k ≤ 9 ∨ (n - r + k) % 10 = 9 ∧ m ≤ 8) (hj : n + (k - m) ≤ j) (hj' : j ≤ n + k) :
    newest 10 r j = max r (n + k - 9) := by
  unfold newest
  rcases h with hfew | ⟨hmod, hm⟩
  · rw [Nat.max_eq_left (by omega)]
    omega
  · rw [Nat.max_eq_right (by omega)]
    omega

namespace RxInv

variable {chunk : ℕ} {s₀ : State} {t : RxSys}

/-- A call that does not see an empty queue, in its phases: it finds the newest frame
of the slot at the tail, gives up if this is too long, and else stores the tail after
the one it read. -/
lemma readPreempted_eq (h : RxInv chunk s₀ none 0 t) (memLen : UInt32) (w : RxWindow)
    {t₀ t₂ : RxSys} (h₀ : t₀ = t.receives w.beforeTailRead)
    (h₂ : t₂ = (t₀.receives w.beforeCmplt).receives w.beforeLen)
    (hne : t.drv.ethRxhead ≠ t₀.drv.ethRxtail) (hlt : t₀.next < t₀.arrived.length) :
    (t.frameSeen w = t₂.frame (newest 10 t₀.next t₂.arrived.length)) ∧
    t.readPreempted memLen w =
      if memLen.toNat < (t.frameSeen w).length then t₂
      else
        let tₛ := t₂.atStore (rxBd (t₀.next % 10)) w
        { tₛ with
          drv := rxsgAdvance tₛ.drv t₀.drv.ethRxtail
          delivered := tₛ.delivered ++ [(newest 10 t₀.next t₂.arrived.length,
            ⟨xdma2S2mmBuffer + chunk * (t₀.next % 10), (t.frameSeen w).length,
              load (t₂.atCopy (rxBd (t₀.next % 10)) w).drv.ram
                (xdma2S2mmBuffer + chunk * (t₀.next % 10)) (t.frameSeen w).length⟩)] } := by
  have hinv₀ : RxInv chunk s₀ none 0 t₀ := h₀ ▸ h.receives _
  have hinv₁ := hinv₀.receives w.beforeCmplt
  have hinv₂ : RxInv chunk s₀ none 0 t₂ := h₂ ▸ hinv₁.receives _
  have hlt₁ : t₀.next < (t₀.receives w.beforeCmplt).arrived.length := by
    rw [RxSys.receives_arrived_length]
    omega
  have hlt₂ : t₀.next < t₂.arrived.length := by
    rw [h₂, RxSys.receives_arrived_length]
    omega
  have hdel₁ : ∀ d ∈ (t₀.receives w.beforeCmplt).delivered, d.1 < t₀.next := fun d hd =>
    hinv₀.delivered_lt (by rwa [RxSys.receives_delivered] at hd)
  have hdel₂ : ∀ d ∈ t₂.delivered, d.1 < t₀.next := fun d hd =>
    hdel₁ d (by rwa [h₂, RxSys.receives_delivered] at hd)
  -- the completion and the length are read at different times, each as the slot is then
  obtain ⟨hcmplt, -⟩ := hinv₁.status_newest hlt₁ hdel₁
  obtain ⟨-, hlen⟩ := hinv₂.status_newest hlt₂ hdel₂
  have hseen : t.frameSeen w = t₂.frame (newest 10 t₀.next t₂.arrived.length) := by
    simp only [RxSys.frameSeen, ← h₀, ← h₂, hinv₀.tail, hinv₂.stamp_newest hlt₂]
  refine ⟨hseen, ?_⟩
  simp only [RxSys.readPreempted, ← h₀, if_neg hne, hinv₀.tail, hcmplt, ← h₂, hlen, ← hseen,
    hinv₁.buffer, hinv₂.stamp_newest hlt₂]
  rfl

/-- A call that does not see an empty queue finds a frame. -/
lemma next_lt_of_head_ne (h : RxInv chunk s₀ none 0 t) {fs : List Frame}
    (hne : t.drv.ethRxhead ≠ (t.receives fs).drv.ethRxtail) :
    (t.receives fs).next < (t.receives fs).arrived.length := by
  have hnext := h.receives_next fs
  have hle := h.next_le
  have hslot : t.arrived.length % 10 ≠ (t.receives fs).next % 10 := by
    rw [← (h.receives fs).tail]
    exact fun heq => hne (UInt8.toNat_inj.1 (h.head.trans heq))
  rw [t.receives_arrived_length]
  omega

/-- A call that stores the tail: the state `ts` at the store, the frame `x` that was
read and the frame `y` whose descriptor was handed back. -/
lemma readPreempted_store (h : RxInv chunk s₀ none 0 t) {memLen : UInt32} {w : RxWindow}
    {t₀ : RxSys} (h₀ : t₀ = t.receives w.beforeTailRead)
    (hne : t.drv.ethRxhead ≠ t₀.drv.ethRxtail) (hlen : ¬ memLen.toNat < (t.frameSeen w).length) :
    ∃ ts x y f, t.readPreempted memLen w =
        { ts with
          drv := rxsgAdvance ts.drv t₀.drv.ethRxtail
          delivered := ts.delivered ++ [(x, f)] } ∧
      RxInv chunk s₀ (some y) 0 ts ∧ ts.delivered = t₀.delivered ∧
      ts.arrived.length = t₀.arrived.length + w.afterTail ∧
      ts.next = max t₀.next (t₀.arrived.length + w.afterTail - 9) ∧
      x = newest 10 t₀.next (t₀.arrived.length + (w.afterTail - w.afterLen)) ∧
      y = newest 10 t₀.next
        (t₀.arrived.length + (w.afterTail - w.afterLen) + w.beforeRelease.length) ∧
      f.transLen = (ts.frame x).length ∧ (x = ts.next → f.mem = ts.frame x) := by
  generalize h₂ : (t₀.receives w.beforeCmplt).receives w.beforeLen = t₂
  have hinv₀ : RxInv chunk s₀ none 0 t₀ := h₀ ▸ h.receives _
  have hinv₁ := hinv₀.receives w.beforeCmplt
  have hinv₂ : RxInv chunk s₀ none 0 t₂ := h₂ ▸ hinv₁.receives _
  have hlt : t₀.next < t₀.arrived.length := h₀ ▸ h.next_lt_of_head_ne (h₀ ▸ hne)
  obtain ⟨hseen, heq⟩ := h.readPreempted_eq memLen w h₀ h₂.symm hne hlt
  rw [if_neg hlen] at heq
  have hafter := w.afterLen_le
  have hlater : w.afterTail - w.afterLen = w.beforeCmplt.length + w.beforeLen.length :=
    Nat.add_sub_cancel _ _
  have hlen₂ : t₂.arrived.length = t₀.arrived.length + (w.afterTail - w.afterLen) := by
    rw [← h₂, RxSys.receives_arrived_length, RxSys.receives_arrived_length, hlater, Nat.add_assoc]
  have hnext₂ : t₂.next = max t₀.next (t₀.arrived.length + (w.afterTail - w.afterLen) - 9) := by
    rw [← h₂, hinv₁.receives_next, hinv₀.receives_next, RxSys.receives_arrived_length,
      max_max_sub, hlater, Nat.add_assoc]
  have hlt₂ : t₀.next < t₂.arrived.length := by omega
  have hcopy := hinv₂.atCopy hlt₂ w
  have hstore := hinv₂.atStore hlt₂ w
  have hx : newest 10 t₀.next t₂.arrived.length < t₂.arrived.length := newest_lt hlt₂
  have hframe : (t₂.atStore (rxBd (t₀.next % 10)) w).frame (newest 10 t₀.next t₂.arrived.length)
      = t.frameSeen w := by
    rw [RxSys.atStore, RxSys.frame_receives _ _ (by rw [RxSys.atCopy_arrived_length]; omega),
      RxSys.frame_atCopy _ _ _ hx, hseen]
  refine ⟨_, _, _, _, heq, hstore, ?_, ?_, ?_, ?_, ?_, ?_, ?_⟩
  · rw [RxSys.atStore, RxSys.receives_delivered, RxSys.atCopy, RxSys.receives_delivered,
      RxSys.receives_delivered, ← h₂, RxSys.receives_delivered, RxSys.receives_delivered]
  · rw [RxSys.atStore, RxSys.receives_arrived_length, RxSys.atCopy_arrived_length, hlen₂]
    simp only [RxWindow.afterTail, RxWindow.afterLen]
    omega
  · rw [hinv₂.atStore_next hlt₂, hlen₂, hnext₂, max_max_sub, Nat.add_assoc,
      Nat.sub_add_cancel hafter]
  · rw [hlen₂]
  · rw [hlen₂]
  · rw [hframe]
  · intro hnext
    -- the frame is still in its slot at the store, hence it was there at the copy
    have hbound := hstore.bound
    have hlenc : (t₂.atCopy (rxBd (t₀.next % 10)) w).arrived.length ≤
        (t₂.atStore (rxBd (t₀.next % 10)) w).arrived.length := by
      rw [RxSys.atStore, RxSys.receives_arrived_length]
      exact Nat.le_add_right _ _
    have hbytes := hcopy.bytes (newest 10 t₀.next t₂.arrived.length)
      (by rw [RxSys.atCopy_arrived_length]; omega) (by omega)
    rw [hcopy.buffer, newest_mod, RxSys.frame_atCopy _ _ _ hx, ← hseen] at hbytes
    rw [hframe, hbytes]

/-- Harmless receptions leave the queue as a call without receptions would. -/
lemma readPreempted (h : RxInv chunk s₀ none 0 t) {memLen : UInt32} {w : RxWindow}
    (hw : t.Harmless memLen w) : RxInv chunk s₀ none 0 (t.readPreempted memLen w) := by
  generalize h₀ : t.receives w.beforeTailRead = t₀
  generalize h₂ : (t₀.receives w.beforeCmplt).receives w.beforeLen = t₂
  have hinv₀ : RxInv chunk s₀ none 0 t₀ := h₀ ▸ h.receives _
  by_cases hne : t.drv.ethRxhead = t₀.drv.ethRxtail
  · simp only [RxSys.readPreempted, h₀, if_pos hne]
    exact hinv₀
  have hlt : t₀.next < t₀.arrived.length := h₀ ▸ h.next_lt_of_head_ne (h₀ ▸ hne)
  by_cases hlong : memLen.toNat < (t.frameSeen w).length
  · rw [(h.readPreempted_eq memLen w h₀.symm h₂.symm hne hlt).2, if_pos hlong, ← h₂]
    exact (hinv₀.receives _).receives _
  · obtain ⟨ts, x, y, f, heq, hinv, -, hlen, hnext, hx, hy, htrans, hmem⟩ :=
      h.readPreempted_store h₀.symm hne hlong
    have hbound := hinv₀.bound
    have hcond : t₀.arrived.length - t₀.next + w.afterTail ≤ 9 ∨
        (t₀.arrived.length - t₀.next + w.afterTail) % 10 = 9 ∧ w.afterLen ≤ 8 := by
      rw [← hinv₀.waiting_length]
      simp only [RxSys.Harmless, h₀] at hw
      tauto
    have hrelease : w.beforeRelease.length ≤ w.afterLen := by
      unfold RxWindow.afterLen
      omega
    have hafter := w.afterLen_le
    -- the frame read and the frame handed back are both the oldest one in the end
    have hx' : x = ts.next := by
      rw [hx, hnext, newest_of_stale_tail hlt hbound hcond (by omega) (by omega)]
    have hy' : y = ts.next := by
      rw [hy, hnext, newest_of_stale_tail hlt hbound hcond (by omega) (by omega)]
    have htail : t₀.drv.ethRxtail.toNat = ts.next % 10 := by
      rw [hinv₀.tail, ← hx', hx, newest_mod]
    have hmem' := hmem hx'
    subst hx'
    rw [heq]
    refine hinv.advance (fun _ hheld => ?_) htail (by omega) hmem' htrans
    rw [← Option.some.inj hheld, hy']

/-- **The exact condition.**  After a call the books are in order exactly when the
receptions during the call were harmless. -/
lemma accounted_readPreempted_iff (h : RxInv chunk s₀ none 0 t) (memLen : UInt32)
    (w : RxWindow) : RxAccounted s₀ (t.readPreempted memLen w) ↔ t.Harmless memLen w := by
  refine ⟨fun hacc => ?_, fun hw => (h.readPreempted hw).accounted⟩
  generalize h₀ : t.receives w.beforeTailRead = t₀
  have hinv₀ : RxInv chunk s₀ none 0 t₀ := h₀ ▸ h.receives _
  simp only [RxSys.Harmless, h₀]
  by_cases hne : t.drv.ethRxhead = t₀.drv.ethRxtail
  · exact Or.inl hne
  have hlt : t₀.next < t₀.arrived.length := h₀ ▸ h.next_lt_of_head_ne (h₀ ▸ hne)
  by_cases hlong : memLen.toNat < (t.frameSeen w).length
  · exact Or.inr (Or.inl hlong)
  · obtain ⟨ts, x, y, f, heq, hinv, hdel, hlen, hnext, hx, -, -, -⟩ :=
      h.readPreempted_store h₀.symm hne hlong
    have hbound := hinv₀.bound
    have hle := le_newest 10 t₀.next (t₀.arrived.length + (w.afterTail - w.afterLen))
    have hstale := hinv.of_accounted_advance hinv₀.tail (by omega) (by omega)
      (fun d hd => by
        have := hinv₀.delivered_lt (hdel ▸ hd)
        omega) (heq ▸ hacc)
    rw [hnext, hx, stale_tail_iff hlt hbound w.afterLen_le] at hstale
    rw [hinv₀.waiting_length]
    exact Or.inr (Or.inr hstale)

end RxInv

/-! ### Runs -/

/-- The steps of the receive side, with calls that are interrupted. -/
inductive RxPreemptEvent
  | receive (frame : Frame)
  | read (memLen : UInt32) (w : RxWindow)

/-- What an event does. -/
def rxPreemptStep (t : RxSys) : RxPreemptEvent → RxSys
  | .receive frame => t.receive frame
  | .read memLen w => t.readPreempted memLen w

/-- The receptions during a call are harmless. -/
def rxPreemptOk (t : RxSys) : RxPreemptEvent → Prop
  | .receive _ => True
  | .read memLen w => t.Harmless memLen w

instance (t : RxSys) (e : RxPreemptEvent) : Decidable (rxPreemptOk t e) :=
  match e with
  | .receive _ => isTrue trivial
  | .read memLen w => inferInstanceAs (Decidable (t.Harmless memLen w))

lemma RxInv.preemptStep {chunk : ℕ} {s₀ : State} {t : RxSys} (h : RxInv chunk s₀ none 0 t)
    {e : RxPreemptEvent} (he : rxPreemptOk t e) : RxInv chunk s₀ none 0 (rxPreemptStep t e) := by
  cases e with
  | receive frame => exact h.receive frame
  | read memLen w => exact h.readPreempted he

/-- **The reader under interrupts, over whole runs.**  As long as the receptions
during each call are harmless the books of the queue are in order, and the first
call with other receptions leaves them wrong. -/
theorem rxPreempt_accounted_iff {s₀ s₁ : State} {allocLen ioBuff : UInt32} {buf : ℕ}
    {evs : List RxPreemptEvent}
    (hstart : ethdmaRxsgcyclic s₀ allocLen ioBuff = .ok (some buf, s₁))
    (hten : allocLen.toNat / ioBuff.toNat = 10)
    (hevs : Admissible rxPreemptStep rxPreemptOk { drv := s₁ } evs) :
    RxAccounted s₀ (run rxPreemptStep { drv := s₁ } evs) ∧
      ∀ memLen w, RxAccounted s₀ ((run rxPreemptStep { drv := s₁ } evs).readPreempted memLen w) ↔
        (run rxPreemptStep { drv := s₁ } evs).Harmless memLen w := by
  have hinv := hevs.invariant (fun _ _ h he => h.preemptStep he) (RxInv.start hstart hten)
  exact ⟨hinv.accounted, hinv.accounted_readPreempted_iff⟩

theorem rxPreempt_accounted_iff_boot :
    RxAccounted {} (run rxPreemptStep { drv := rxBoot }
        [.receive [1, 2, 3], .read 1536 { beforeCopy := [[4]] }]) ∧
      ∀ memLen w, RxAccounted {} ((run rxPreemptStep { drv := rxBoot }
          [.receive [1, 2, 3], .read 1536 { beforeCopy := [[4]] }]).readPreempted memLen w) ↔
        (run rxPreemptStep { drv := rxBoot }
          [.receive [1, 2, 3], .read 1536 { beforeCopy := [[4]] }]).Harmless memLen w :=
  rxPreempt_accounted_iff rxBoot_eq (by decide) (by decide)

/-- Nine frames wait and one more arrives during the copy: the handler counts the frame
that is being returned as lost, and the call puts the tail back. -/
theorem rxPreempt_overflow :
    ¬ RxAccounted {} ((run rxPreemptStep { drv := rxBoot }
      (List.replicate 9 (.receive [1, 2, 3]))).readPreempted 1536 { beforeCopy := [[4]] }) :=
  fun h => absurd h.count (by decide)

end EvtDrivenOs.Xdma
