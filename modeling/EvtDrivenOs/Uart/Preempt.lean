/-
The reader of the MicroBlaze serial port under interrupts.

`_xuartlite_read` is not atomic: it loads the reader's index, compares it with the
writer's, loads it again, fetches the byte and stores the next index.  The handler
`onxUart0_irq` may drain any number of bytes between two of these accesses, and it
moves the reader's index itself when the ring overflows.

The call should behave as a read at one moment in between, `AtomicRead`.  Whether it
does so depends on numbers only: how many bytes are unread, and how many are drained
before each access.  `Sizes.Harmless` is the exact condition.
-/
import EvtDrivenOs.Uart.Receive

namespace EvtDrivenOs.Uart

open EvtDrivenOs.Lib

/-- `XUART_RX_BUFFER` -/
def xuartRxBuffer : UInt8 := 8

/-- The byte in a word of the receive FIFO. -/
def rxByte (w : UInt32) : UInt8 := (w &&& 0xFF).toUInt8

/-- `onxUart0_irq`, which drains what the FIFO contains. -/
def onxUart0Irq (r : RxRing) (fifo : List UInt32) : RxRing :=
  fifo.foldl (fun r w => r.put xuartRxBuffer (rxByte w)) r

/-- The words drained during a call of the reader, by the access they precede. -/
structure ReadWindow where
  beforeTail : List UInt32 := []
  beforeHead : List UInt32 := []
  beforeFetch : List UInt32 := []
  beforeStore : List UInt32 := []

/-- `_xuartlite_read` with the handler at work in between; the operands of the first
comparison are loaded from left to right. -/
def xuartliteRead (r : RxRing) (w : ReadWindow) : UInt8 × RxRing :=
  let rx0Head := r.rxHead
  let r := onxUart0Irq r w.beforeTail
  if rx0Head = r.rxTail then (0, r)
  else
    let r := onxUart0Irq r w.beforeHead
    let rxHead := r.rxHead
    let r := onxUart0Irq r w.beforeFetch
    let c := r.rxRing rxHead.toNat
    let r := onxUart0Irq r w.beforeStore
    (c, { r with rxHead := rxNext xuartRxBuffer rxHead })

/-- The bytes drained during the call. -/
def drained (r : RxRing) (w : ReadWindow) : List UInt8 :=
  (if r.rxHead = (onxUart0Irq r w.beforeTail).rxTail then w.beforeTail
    else w.beforeTail ++ w.beforeHead ++ w.beforeFetch ++ w.beforeStore).map rxByte

/-- The call behaves as a read at one moment between its first and its last access: it
returns the oldest byte retained then, or 0 if there is none, and afterwards the ring
contains what is retained of the other bytes. -/
def ReadAtomic (r : RxRing) (w : ReadWindow) : Prop :=
  RingBuf.AtomicRead 7 0 (r.bytes xuartRxBuffer) (drained r w) (xuartliteRead r w).1
    ((xuartliteRead r w).2.bytes xuartRxBuffer)

/-! ### Runs -/

/-- What happens to the buffer. -/
inductive XuartEvent
  | irq (fifo : List UInt32)
  | read (w : ReadWindow)

/-- What an event does. -/
def xuartStep (r : RxRing) : XuartEvent → RxRing
  | .irq fifo => onxUart0Irq r fifo
  | .read w => (xuartliteRead r w).2

/-- How many bytes are unread before a call, and how many are drained before each of
its accesses. -/
structure Sizes where
  unread : ℕ
  beforeTail : ℕ
  beforeHead : ℕ
  beforeFetch : ℕ
  beforeStore : ℕ

/-- The numbers of bytes that the condition is about. -/
def sizes (r : RxRing) (w : ReadWindow) : Sizes :=
  ⟨(r.bytes xuartRxBuffer).length, w.beforeTail.length, w.beforeHead.length,
    w.beforeFetch.length, w.beforeStore.length⟩

namespace Sizes

/-- The bytes unread at the second load of the reader's index, with those drained later. -/
def fromHead (z : Sizes) : ℕ :=
  min 7 (z.unread + z.beforeTail + z.beforeHead) + z.beforeFetch + z.beforeStore

/-- A ring that looks empty is empty; otherwise the ring does not overflow after the
reader's index was loaded but for the byte that is read, or it overflows by whole
turns, so that the index stored is right again. -/
def Harmless (z : Sizes) : Prop :=
  if (z.unread + z.beforeTail) % 8 = 0 then z.unread = 0
  else z.fromHead ≤ 8 ∨ z.fromHead % 8 = 0 ∨ z.fromHead % 8 = 7 ∧ z.beforeStore ≤ 6

instance (z : Sizes) : Decidable z.Harmless := by
  unfold Harmless
  infer_instance

end Sizes

/-! ### What a call does -/

variable {r : RxRing} {arrived : List UInt8} {next : ℕ}

/-- The handler puts the bytes into the ring one by one. -/
lemma buf_irq (h : r.buf.Holds 8 arrived next) (fifo : List UInt32) :
    (onxUart0Irq r fifo).buf = r.buf.puts 8 (fifo.map rxByte) := by
  induction fifo generalizing r arrived next with
  | nil => rfl
  | cons w fifo ih =>
    have hput : (r.put xuartRxBuffer (rxByte w)).buf = r.buf.put 8 (rxByte w) :=
      @RxRing.buf_put xuartRxBuffer r h.head_lt h.tail_lt (rxByte w)
    have hrest := ih (@RxRing.holds_put xuartRxBuffer _ _ _ h (rxByte w))
    rw [hput] at hrest
    exact hrest

lemma holds_irq (h : r.buf.Holds 8 arrived next) (fifo : List UInt32) :
    (onxUart0Irq r fifo).buf.Holds 8 (arrived ++ fifo.map rxByte)
      (max next (arrived.length + fifo.length - 7)) := by
  have hputs := h.puts (fifo.map rxByte)
  rw [List.length_map, Nat.add_sub_add_right _ 1 7] at hputs
  rw [buf_irq h]
  exact hputs

/-- The comparison at the start of a call. -/
lemma seems_empty_iff (h : r.buf.Holds 8 arrived next) (fifo : List UInt32) :
    r.rxHead = (onxUart0Irq r fifo).rxTail ↔
      ((r.bytes xuartRxBuffer).length + fifo.length) % 8 = 0 := by
  have hle := h.le
  have hhead : r.rxHead.toNat = next % 8 := h.head
  have htail : (onxUart0Irq r fifo).rxTail.toNat = (arrived.length + fifo.length) % 8 := by
    have := (holds_irq h fifo).tail
    rwa [List.length_append, List.length_map] at this
  have hlen : (r.bytes xuartRxBuffer).length = arrived.length - next := by
    rw [show r.bytes xuartRxBuffer = arrived.drop next from h.items_eq, List.length_drop]
  obtain ⟨m, hm⟩ := Nat.exists_eq_add_of_le hle
  rw [← UInt8.toNat_inj, hhead, htail, hlen, hm, Nat.add_sub_cancel_left]
  clear hm hhead htail hlen
  omega

/-- A call that does not find the ring empty: the byte it returns, by its number, and the
reader's index it leaves. -/
lemma read_busy (h : r.buf.Holds 8 arrived next) {w : ReadWindow}
    (hne : r.rxHead ≠ (onxUart0Irq r w.beforeTail).rxTail) {i : ℕ}
    (hi : i = max next (arrived.length + w.beforeTail.length + w.beforeHead.length - 7)) :
    (xuartliteRead r w).1 = (arrived ++ drained r w).getD (newest 8 i (arrived.length +
        w.beforeTail.length + w.beforeHead.length + w.beforeFetch.length)) 0 ∧
      (xuartliteRead r w).2.buf.Holds 8 (arrived ++ drained r w)
        ((arrived ++ drained r w).length - ((arrived ++ drained r w).length - (i + 1)) % 8) := by
  have hle := h.le
  have hbound := h.bound
  have hpos : 0 < arrived.length - next + w.beforeTail.length := by
    have hmod := mt (seems_empty_iff h w.beforeTail).2 hne
    rw [show r.bytes xuartRxBuffer = arrived.drop next from h.items_eq, List.length_drop] at hmod
    omega
  have h2 := holds_irq (holds_irq h w.beforeTail) w.beforeHead
  have h3 := holds_irq h2 w.beforeFetch
  have h4 := holds_irq h3 w.beforeStore
  have hnext : max (max next (arrived.length + w.beforeTail.length - 7))
      ((arrived ++ w.beforeTail.map rxByte).length + w.beforeHead.length - 7) = i := by
    rw [List.length_append, List.length_map, hi]
    exact max_max_sub _ _ _ 7
  rw [hnext] at h2
  clear hnext
  have hdrained : arrived ++ drained r w = arrived ++ w.beforeTail.map rxByte
      ++ w.beforeHead.map rxByte ++ w.beforeFetch.map rxByte ++ w.beforeStore.map rxByte := by
    rw [drained, if_neg hne]
    simp only [List.map_append, List.append_assoc]
  have hlen3 : (arrived ++ w.beforeTail.map rxByte ++ w.beforeHead.map rxByte
      ++ w.beforeFetch.map rxByte).length = arrived.length + w.beforeTail.length
        + w.beforeHead.length + w.beforeFetch.length := by
    simp only [List.length_append, List.length_map]
  have hhead : (onxUart0Irq (onxUart0Irq r w.beforeTail) w.beforeHead).rxHead.toNat = i % 8 :=
    h2.head
  rw [xuartliteRead, if_neg hne, hdrained]
  constructor
  · -- the byte fetched is the newest one in the slot of the index
    have hlt : i < arrived.length + w.beforeTail.length + w.beforeHead.length
        + w.beforeFetch.length := by omega
    have hslot := h3.slot_newest (i := i) (by rw [hlen3]; exact hlt)
    rw [hlen3] at hslot
    have hnew := newest_lt (N := 8) hlt
    rw [List.getD_eq_getElem?_getD, List.getElem?_append_left (by rw [hlen3]; exact hnew), hslot,
      ← hhead]
    rfl
  · -- the index stored goes by what had arrived when it was loaded
    have hseek := h4.seek_mod (i := i + 1) (by
      simp only [List.length_append, List.length_map]
      omega)
    have hstore : (rxNext xuartRxBuffer
        (onxUart0Irq (onxUart0Irq r w.beforeTail) w.beforeHead).rxHead).toNat = (i + 1) % 8 := by
      rw [toNat_rxNext (show _ < xuartRxBuffer.toNat from h2.head_lt), hhead,
        show xuartRxBuffer.toNat = 8 from rfl, ringNext_mod (by decide)]
    rw [← hstore] at hseek
    exact hseek

/-- The ring holds some history. -/
def Ready (r : RxRing) : Prop := ∃ arrived next, r.buf.Holds 8 arrived next

/-- A call keeps this, harmless or not. -/
lemma Ready.step (h : Ready r) (e : XuartEvent) : Ready (xuartStep r e) := by
  obtain ⟨arrived, next, h⟩ := h
  cases e with
  | irq fifo => exact ⟨_, _, holds_irq h fifo⟩
  | read w =>
    by_cases hempty : r.rxHead = (onxUart0Irq r w.beforeTail).rxTail
    · have hirq := holds_irq h w.beforeTail
      rw [show onxUart0Irq r w.beforeTail = xuartStep r (.read w) by
        rw [xuartStep, xuartliteRead, if_pos hempty]] at hirq
      exact ⟨_, _, hirq⟩
    · exact ⟨_, _, (read_busy h hempty rfl).2⟩

lemma ready_start : Ready {} := ⟨[], 0, RingBuf.holds_empty (by decide) _⟩

/-! ### Harmless calls -/

/-- The unread bytes are those from item `next` on. -/
lemma sizes_unread (h : r.buf.Holds 8 arrived next) :
    r.bytes xuartRxBuffer = arrived.drop next ∧
      (r.bytes xuartRxBuffer).length = arrived.length - next := by
  have heq : r.bytes xuartRxBuffer = arrived.drop next := h.items_eq
  exact ⟨heq, by rw [heq, List.length_drop]⟩

lemma length_drained {w : ReadWindow} (hne : r.rxHead ≠ (onxUart0Irq r w.beforeTail).rxTail) :
    (drained r w).length = w.beforeTail.length + w.beforeHead.length + w.beforeFetch.length
      + w.beforeStore.length := by
  rw [drained, if_neg hne]
  simp only [List.length_map, List.length_append]

/-- The moment at which a harmless call can be said to read, as the number `v` of bytes
that have arrived then: `p`, `q` and `t` arrived before the load of the reader's index,
before the fetch and before the store, and `i` is the number of the byte at the index. -/
lemma moment_of_harmless {a next i p q t : ℕ} (ha : a ≤ p) (hq : p ≤ q) (ht : q ≤ t)
    (hi : i = max next (p - 7)) (hip : i < p)
    (h : t - i ≤ 8 ∨ (t - i) % 8 = 0 ∨ (t - i) % 8 = 7 ∧ t - q ≤ 6) :
    ∃ v, a ≤ v ∧ v ≤ t ∧ newest 8 i q = max next (v - 7) ∧ max next (v - 7) < v ∧
      t - (t - (i + 1)) % 8 = max (max next (v - 7) + 1) (t - 7) := by
  unfold newest
  rcases Nat.lt_or_ge 8 (t - i) with hmany | hfew
  · -- the byte fetched is the oldest one when seven bytes have arrived from it on
    have hle : next ≤ i := hi ▸ le_max_left _ _
    have hfull : p ≤ i + 7 := Nat.sub_le_iff_le_add.mp (hi ▸ le_max_right next (p - 7))
    clear hi
    have hdiv := Nat.div_add_mod (q - i - 1) 8
    have hmod := Nat.mod_lt (q - i - 1) (show 0 < 8 by decide)
    generalize (q - i - 1) / 8 = k at *
    have hk : i + 8 * k + 7 ≤ t := by
      rcases h with h8 | hzero | ⟨hseven, hlate⟩ <;> omega
    refine ⟨i + 8 * k + 7, by omega, hk, ?_⟩
    rw [Nat.add_sub_cancel, Nat.max_eq_right (hle.trans (Nat.le_add_right i _))]
    refine ⟨rfl, by omega, ?_⟩
    -- seven bytes are left, or six
    rcases h with h8 | hzero | ⟨hseven, hlate⟩
    · omega
    · have hleft : (t - (i + 1)) % 8 = 7 := by omega
      rw [hleft]
      omega
    · have hleft : (t - (i + 1)) % 8 = 6 := by omega
      rw [hleft]
      omega
  · rw [show (q - i - 1) / 8 = 0 by omega]
    refine ⟨p, ha, hq.trans ht, ?_⟩
    rw [← hi]
    have hmod : (t - (i + 1)) % 8 = t - (i + 1) := Nat.mod_eq_of_lt (by omega)
    rw [hmod]
    exact ⟨rfl, hip, by omega⟩

/-- The bytes unread at the load of the reader's index, by the numbers of the bytes. -/
lemma fromHead_eq {a next t h f s : ℕ} (hle : next ≤ a) (hlt : a < next + 8) :
    min 7 (a - next + t + h) + f + s = a + (t + h + f + s) - max next (a + t + h - 7) := by
  rcases Nat.lt_or_ge (a + t + h) (next + 7) with hfew | hmany
  · rw [Nat.min_eq_right (by omega), Nat.max_eq_left (by omega)]
    omega
  · rw [Nat.min_eq_left (by omega), Nat.max_eq_right (by omega)]
    omega

/-- In a harmless call there is a moment at which the read happened. -/
lemma readAtomic_of_harmless (h : r.buf.Holds 8 arrived next) {w : ReadWindow}
    (hw : (sizes r w).Harmless) : ReadAtomic r w := by
  have hle := h.le
  have hbound := h.bound
  obtain ⟨hbytes, hunread⟩ := sizes_unread h
  have hseems := seems_empty_iff h w.beforeTail
  unfold ReadAtomic
  rw [hbytes, RingBuf.atomicRead_iff hle]
  simp only [Sizes.Harmless, Sizes.fromHead, sizes, hunread] at hw
  rw [hunread] at hseems
  by_cases hempty : r.rxHead = (onxUart0Irq r w.beforeTail).rxTail
  · -- an empty ring is read at the start of the call
    rw [if_pos (hseems.1 hempty)] at hw
    have hdrained : (drained r w).length = w.beforeTail.length := by
      rw [drained, if_pos hempty, List.length_map]
    refine ⟨0, Nat.zero_le _, next, by omega, ?_, ?_⟩
    · rw [xuartliteRead, if_pos hempty, if_neg (by omega)]
    · rw [xuartliteRead, if_pos hempty,
        show RxRing.bytes xuartRxBuffer (onxUart0Irq r w.beforeTail) = _ from
          (holds_irq h w.beforeTail).items_eq, drained, if_pos hempty, List.length_map]
      congr 1
      omega
  · rw [if_neg (mt hseems.2 hempty)] at hw
    have hbusy := mt hseems.2 hempty
    have hlen := length_drained hempty
    obtain ⟨hbyte, hholds⟩ := read_busy h hempty rfl
    rw [List.length_append, hlen] at hholds
    rw [fromHead_eq hle hbound] at hw
    have hlater : arrived.length + (w.beforeTail.length + w.beforeHead.length
        + w.beforeFetch.length + w.beforeStore.length) - (arrived.length + w.beforeTail.length
          + w.beforeHead.length + w.beforeFetch.length) = w.beforeStore.length := by omega
    obtain ⟨v, hav, hvt, hnew, hlt, hhead⟩ :=
      @moment_of_harmless arrived.length next _ (arrived.length + w.beforeTail.length
        + w.beforeHead.length) (arrived.length + w.beforeTail.length + w.beforeHead.length
          + w.beforeFetch.length) (arrived.length + (w.beforeTail.length + w.beforeHead.length
            + w.beforeFetch.length + w.beforeStore.length)) (by omega) (by omega) (by omega) rfl
        (by omega) (by rwa [hlater])
    refine ⟨v - arrived.length, by omega, _, rfl, ?_, ?_⟩
    · rw [hbyte, hnew, show arrived.length + (v - arrived.length) = v by omega, if_pos hlt]
    · rw [show RxRing.bytes xuartRxBuffer (xuartliteRead r w).2 = _ from hholds.items_eq, hhead,
        hlen, show arrived.length + (v - arrived.length) = v by omega, Nat.min_eq_left hlt]

/-! ### Calls that do harm -/

/-- Words for the bytes from number `a` on: the byte with number `f` is 2, all others are 1. -/
def probe (f a n : ℕ) : List UInt32 := (List.range' a n).map fun i => if i = f then 2 else 1

/-- All bytes are the same but for that at one place. -/
def probeByte (f i : ℕ) : UInt8 := if i = f then 2 else 1

lemma map_probe (f a n : ℕ) : (probe f a n).map rxByte = (List.range' a n).map (probeByte f) := by
  rw [probe, List.map_map]
  refine List.map_congr_left fun i _ => ?_
  show rxByte (if i = f then 2 else 1) = probeByte f i
  rw [probeByte]
  split <;> rfl

@[simp] lemma length_probe (f a n : ℕ) : (probe f a n).length = n := by
  rw [probe, List.length_map, List.length_range']

lemma probe_append (f n k : ℕ) : (List.range' 0 n).map (probeByte f)
    ++ (List.range' n k).map (probeByte f) = (List.range' 0 (n + k)).map (probeByte f) := by
  have := @List.range'_append_1 0 n k
  rw [Nat.zero_add] at this
  rw [← List.map_append, this]

lemma getD_probe {f i n : ℕ} (hi : i < n) :
    ((List.range' 0 n).map (probeByte f)).getD i 0 = probeByte f i := by
  rw [List.getD_eq_getElem?_getD, List.getElem?_map, List.getElem?_range' hi, Nat.zero_add,
    Nat.one_mul]
  rfl

/-- The state with `k` unread bytes. -/
def probeRing (f k : ℕ) : RxRing := onxUart0Irq {} (probe f 0 k)

/-- The interrupts bring the bytes of a probe. -/
def probeWindow (f : ℕ) (z : Sizes) : ReadWindow where
  beforeTail := probe f z.unread z.beforeTail
  beforeHead := probe f (z.unread + z.beforeTail) z.beforeHead
  beforeFetch := probe f (z.unread + z.beforeTail + z.beforeHead) z.beforeFetch
  beforeStore := probe f (z.unread + z.beforeTail + z.beforeHead + z.beforeFetch) z.beforeStore

lemma holds_probe {k : ℕ} (hk : k ≤ 7) (f : ℕ) :
    (probeRing f k).buf.Holds 8 ((List.range' 0 k).map (probeByte f)) 0 := by
  have hstart : RingBuf.Holds 8 (RxRing.buf {}) [] 0 := RingBuf.holds_empty (by decide) _
  have := holds_irq hstart (probe f 0 k)
  rwa [List.nil_append, map_probe, length_probe, List.length_nil,
    show max 0 (0 + k - 7) = 0 by omega] at this

lemma sizes_probe {z : Sizes} (hz : z.unread ≤ 7) (f : ℕ) :
    sizes (probeRing f z.unread) (probeWindow f z) = z := by
  rw [sizes, (sizes_unread (holds_probe hz f)).2]
  simp [probeWindow]

lemma window_lengths (f : ℕ) (z : Sizes) :
    (probeWindow f z).beforeTail.length = z.beforeTail ∧
      (probeWindow f z).beforeHead.length = z.beforeHead ∧
      (probeWindow f z).beforeFetch.length = z.beforeFetch ∧
      (probeWindow f z).beforeStore.length = z.beforeStore := by
  simp [probeWindow]

/-- All the bytes of the call, by number. -/
lemma drained_probe (z : Sizes) (f : ℕ) :
    (List.range' 0 z.unread).map (probeByte f) ++ drained (probeRing f z.unread) (probeWindow f z)
      = (List.range' 0 (z.unread + (drained (probeRing f z.unread) (probeWindow f z)).length)).map
        (probeByte f) := by
  unfold drained
  split
  · rw [probeWindow, map_probe, probe_append, List.length_map, List.length_range']
  · simp only [probeWindow, List.map_append, map_probe, ← List.append_assoc, probe_append,
      List.length_append, List.length_map, List.length_range']
    simp only [Nat.add_assoc]

/-- If the right number of bytes is left after a harmful call, the read can only have
happened at its end, and seven bytes were drained after the fetch. -/
lemma last_of_count {u q t v : ℕ} (hu : u < q) (ht : q ≤ t) (hv : v ≤ t)
    (hharm : ¬ (t - u ≤ 8 ∨ (t - u) % 8 = 0 ∨ (t - u) % 8 = 7 ∧ t - q ≤ 6))
    (hcount : t - (t - (t - (u + 1)) % 8) = t - max (min (v - 7 + 1) v) (t - 7)) :
    v - 7 = t - 7 ∧ 7 < v ∧ 7 ≤ t - q := by
  obtain ⟨n, rfl⟩ := Nat.exists_eq_add_of_lt (Nat.lt_of_lt_of_le hu ht)
  rw [Nat.add_assoc u n 1, Nat.add_sub_cancel_left] at hharm
  have hn : u + n + 1 - (u + 1) = n := by omega
  rw [hn, Nat.sub_sub_self ((Nat.mod_le n 8).trans (by omega))] at hcount
  have hmany : 8 ≤ n := by omega
  -- seven bytes are left, or six after a read at the end
  have hleft : u + n + 1 - max (min (v - 7 + 1) v) (u + n + 1 - 7) = 7 ∨
      u + n + 1 - max (min (v - 7 + 1) v) (u + n + 1 - 7) = 6 ∧ v = u + n + 1 := by
    clear hcount hharm
    rcases Nat.lt_or_ge v (u + n + 1) with hbefore | hend
    · left
      have hmin : min (v - 7 + 1) v ≤ u + n + 1 - 7 := (Nat.min_le_left _ _).trans (by omega)
      rw [Nat.max_eq_right hmin]
      omega
    · right
      rw [Nat.min_eq_left (by omega), Nat.max_eq_left (by omega)]
      omega
  rcases hleft with h7 | ⟨h6, rfl⟩
  · rw [h7] at hcount
    omega
  · rw [h6] at hcount
    omega

/-- Where the condition fails there are bytes for which no moment is right: a ring that
wrongly looks empty gives 0 instead of a byte that is not 0, and a stale index leaves
too few bytes in the ring or, after the ring has turned, belongs to another byte. -/
lemma harmless_of_readAtomic {z : Sizes} (hz : z.unread ≤ 7)
    (h : ∀ f, ReadAtomic (probeRing f z.unread) (probeWindow f z)) : z.Harmless := by
  generalize hp : z.unread + z.beforeTail + z.beforeHead = p
  generalize hf : newest 8 (p - 7) (p + z.beforeFetch) = f
  have ht : z.unread + (z.beforeTail + z.beforeHead + z.beforeFetch + z.beforeStore)
      = p + z.beforeFetch + z.beforeStore := by omega
  have hfrom : min 7 p + z.beforeFetch + z.beforeStore
      = p + z.beforeFetch + z.beforeStore - (p - 7) := by omega
  have hholds := holds_probe hz f
  have hall := drained_probe z f
  have hseems := seems_empty_iff hholds (probeWindow f z).beforeTail
  have hread := h f
  unfold ReadAtomic at hread
  rw [(sizes_unread hholds).1, RingBuf.atomicRead_iff hholds.le, List.length_map,
    List.length_range'] at hread
  rw [(sizes_unread hholds).2, List.length_map, List.length_range', Nat.sub_zero,
    (window_lengths f z).1] at hseems
  obtain ⟨m, hm, i, hi, hbyte, hleft⟩ := hread
  rw [hall] at hbyte hleft
  by_contra hharm
  simp only [Sizes.Harmless, Sizes.fromHead] at hharm
  by_cases hempty : (probeRing f z.unread).rxHead
      = (onxUart0Irq (probeRing f z.unread) (probeWindow f z).beforeTail).rxTail
  · rw [if_pos (hseems.1 hempty)] at hharm
    rw [xuartliteRead, if_pos hempty, if_pos (by omega), getD_probe (by omega), probeByte] at hbyte
    replace hbyte : (0 : UInt8) = if i = f then 2 else 1 := hbyte
    split at hbyte <;> exact absurd hbyte (by decide)
  · have hbusy := mt hseems.2 hempty
    have hlater : p - 7 < p + z.beforeFetch := by omega
    have hfetch : f < p + z.beforeFetch := hf ▸ newest_lt hlater
    rw [if_neg hbusy] at hharm
    have hlen := length_drained hempty
    obtain ⟨hfetched, hstored⟩ := read_busy hholds hempty (Eq.refl _)
    simp only [List.length_map, List.length_range', Nat.zero_max, (window_lengths f z).1,
      (window_lengths f z).2.1, (window_lengths f z).2.2.1, (window_lengths f z).2.2.2, hp, hf]
      at hlen hfetched hstored
    rw [hall, hlen] at hfetched hstored
    rw [hlen] at hm hbyte hleft
    rw [(sizes_unread hstored).1] at hleft
    have hcount := congrArg List.length hleft
    simp only [List.length_drop, List.length_map, List.length_range'] at hcount
    rw [hp, hfrom] at hharm
    rw [ht, hi, Nat.zero_max] at hcount
    -- seven bytes have gone by since the read, so the byte read is not the one at the index
    obtain ⟨hi', hv, hlast⟩ := last_of_count hlater (Nat.le_add_right _ z.beforeStore)
      (by rw [← ht]; exact Nat.add_le_add_left hm _) (by rwa [Nat.add_sub_cancel_left]) hcount
    clear hcount hharm hbusy hseems
    rw [hfetched, if_pos (by omega), getD_probe (by omega), getD_probe (by omega), probeByte,
      probeByte, if_pos rfl, if_neg (by omega)] at hbyte
    exact absurd hbyte (by decide)

/-- **The reader under interrupts.**  For an occupancy and numbers of bytes drained before
each access, every call from a reachable state with these numbers behaves as a read at one
moment, if and only if the numbers are harmless. -/
theorem xuartRead_atomic_iff {z : Sizes} (hz : z.unread ≤ 7) :
    (∀ evs w, sizes (run xuartStep {} evs) w = z → ReadAtomic (run xuartStep {} evs) w) ↔
      z.Harmless := by
  constructor
  · intro h
    exact harmless_of_readAtomic hz fun f =>
      h [.irq (probe f 0 z.unread)] (probeWindow f z) (sizes_probe hz f)
  · rintro hz evs w rfl
    obtain ⟨arrived, next, h⟩ :=
      @run_invariant _ _ xuartStep Ready (fun _ e h => h.step e) _ ready_start evs
    exact readAtomic_of_harmless h hz

/-- Seven bytes are unread, and one more is drained before the fetch. -/
theorem xuartRead_atomic_iff_one :
    (∀ evs w, sizes (run xuartStep {} evs) w = ⟨7, 0, 0, 1, 0⟩ →
      ReadAtomic (run xuartStep {} evs) w) ↔ Sizes.Harmless ⟨7, 0, 0, 1, 0⟩ :=
  xuartRead_atomic_iff (by decide)

/-- Seven bytes are unread, and two more are drained between the fetch and the store: the
index stored is the writer's, and the full ring looks empty. -/
theorem xuartRead_emptied :
    ¬ ReadAtomic (run xuartStep {} [.irq [1, 2, 3, 4, 5, 6, 7]]) { beforeStore := [8, 9] } := by
  have hr : (run xuartStep {} [.irq [1, 2, 3, 4, 5, 6, 7]]).bytes xuartRxBuffer
      = [1, 2, 3, 4, 5, 6, 7] := by decide
  have hl : (xuartliteRead (run xuartStep {} [.irq [1, 2, 3, 4, 5, 6, 7]])
      { beforeStore := [8, 9] }).2.bytes xuartRxBuffer = [] := by decide
  rintro ⟨pre, post, hws, -, hleft⟩
  have hlen := congrArg List.length hws
  rw [hl, hr] at hleft
  have := congrArg List.length hleft
  simp only [List.length_nil, List.length_append, List.rtake, List.length_drop, List.length_tail,
    List.length_cons] at this hlen
  omega

end EvtDrivenOs.Uart
