/-
The receive ring of the serial ports and its runs on the AVR.

`mc_avr/sys/uart.c` and `mb_le/sys/xuart.c` keep received bytes in the same kind
of ring: two indices of eight bits, one slot always unused, and an interrupt
handler that moves the reader's index when the ring is full.  `RxRing` is that
ring.  On the AVR the reader is atomic, so a run is a sequence of whole handlers
and whole reads; `uartRun_correct` says what holds after every run.
-/
import EvtDrivenOs.Lib.Ledger
import EvtDrivenOs.Lib.RingBuffer
import EvtDrivenOs.Lib.Run

namespace EvtDrivenOs.Uart

open EvtDrivenOs.Lib

/-! ### The ring -/

/-- The static variables of a driver: the ring with its two indices. -/
structure RxRing where
  rxHead : UInt8 := 0
  rxTail : UInt8 := 0
  rxRing : ℕ → UInt8 := fun _ => 0

/-- The index after `i` in a ring of `size` slots. -/
def rxNext (size i : UInt8) : UInt8 := if i + 1 = size then 0 else i + 1

/-- What both handlers do with a byte. -/
def RxRing.put (size : UInt8) (r : RxRing) (c : UInt8) : RxRing :=
  let nextTail := rxNext size r.rxTail
  { rxHead := if nextTail = r.rxHead then rxNext size r.rxHead else r.rxHead
    rxTail := nextTail
    rxRing := Function.update r.rxRing r.rxTail.toNat c }

namespace RxRing

/-- The ring with natural numbers for indices. -/
def buf (r : RxRing) : RingBuf UInt8 := ⟨r.rxRing, r.rxHead.toNat, r.rxTail.toNat⟩

/-- The bytes between the two indices, the oldest first. -/
def bytes (size : UInt8) (r : RxRing) : List UInt8 := r.buf.items size.toNat

end RxRing

lemma toNat_rxNext {size i : UInt8} (h : i.toNat < size.toNat) :
    (rxNext size i).toNat = ringNext size.toNat i.toNat := by
  have hadd : (i + 1).toNat = i.toNat + 1 := by
    have := size.toNat_lt
    rw [UInt8.toNat_add, UInt8.toNat_one]
    omega
  rw [rxNext, ringNext, ← hadd]
  simp only [UInt8.toNat_inj]
  split <;> rfl

namespace RxRing

variable {size : UInt8} {r : RxRing} {arrived : List UInt8} {next : ℕ}

/-- On indices within the ring the handler is the overwriting buffer of the library. -/
lemma buf_put (hhead : r.rxHead.toNat < size.toNat) (htail : r.rxTail.toNat < size.toNat)
    (c : UInt8) : (r.put size c).buf = r.buf.put size.toNat c := by
  have hiff : rxNext size r.rxTail = r.rxHead ↔
      ringNext size.toNat r.rxTail.toNat = r.rxHead.toNat := by
    rw [← toNat_rxNext htail, UInt8.toNat_inj]
  by_cases hfull : rxNext size r.rxTail = r.rxHead
  · simp [put, buf, RingBuf.put, toNat_rxNext hhead, hfull, hiff.1 hfull]
  · simp [put, buf, RingBuf.put, toNat_rxNext htail, hfull, mt hiff.2 hfull]

lemma holds_put (h : r.buf.Holds size.toNat arrived next) (c : UInt8) :
    (r.put size c).buf.Holds size.toNat (arrived ++ [c])
      (max next (arrived.length + 2 - size.toNat)) := by
  rw [buf_put h.head_lt h.tail_lt]
  exact h.put c

lemma head_eq_tail_iff (h : r.buf.Holds size.toNat arrived next) :
    r.rxHead = r.rxTail ↔ next = arrived.length := by
  rw [← h.head_eq_tail_iff, ← UInt8.toNat_inj]
  rfl

lemma bytes_eq (h : r.buf.Holds size.toNat arrived next) :
    r.bytes size = arrived.drop next := h.items_eq

/-- The oldest byte, when there is one. -/
lemma byte_head (h : r.buf.Holds size.toNat arrived next) (hlt : next < arrived.length) :
    arrived[next]? = some (r.rxRing r.rxHead.toNat) := by
  have hslot := h.slot next _ (List.getElem?_eq_getElem hlt) (Nat.le_of_lt h.bound)
  rw [← h.head] at hslot
  rw [List.getElem?_eq_getElem hlt]
  exact congrArg some hslot.symm

/-- The reader's index moves to the next byte. -/
lemma holds_next (h : r.buf.Holds size.toNat arrived next) (hlt : next < arrived.length) :
    RingBuf.Holds size.toNat ({ r with rxHead := rxNext size r.rxHead } : RxRing).buf arrived
      (next + 1) := by
  have hhead : (rxNext size r.rxHead).toNat = (next + 1) % size.toNat := by
    rw [toNat_rxNext h.head_lt, show r.rxHead.toNat = next % size.toNat from h.head,
      ringNext_mod h.pos]
  have hbound := h.bound
  have := h.seek (i := next + 1) hlt (by omega)
  rw [← hhead] at this
  exact this

end RxRing

/-! ### The driver of the AVR -/

/-- `UART_RX_RING_SIZE` -/
def uartRxRingSize : UInt8 := 8

/-- The position of the flag for a framing error in `UCSR0A`. -/
def fe0 : UInt8 := 4

/-- The position of the flag for an overrun. -/
def dor0 : UInt8 := 3

/-- `_uart_start`, of which only the indices matter to the ring. -/
def uartStart (r : RxRing) : RxRing := { r with rxHead := 0, rxTail := 0 }

/-- `_uart_read`: the byte returned, and the ring after the call. -/
def uartRead (r : RxRing) : UInt8 × RxRing :=
  if r.rxHead = r.rxTail then (0, r)
  else (r.rxRing r.rxHead.toNat, { r with rxHead := rxNext uartRxRingSize r.rxHead })

/-- The receiver reports an error for the byte. -/
def rxError (status : UInt8) : Bool := (status &&& (1 <<< fe0 ||| 1 <<< dor0)) != 0

/-- `uart_onRxCompleteISR` with the contents of `UCSR0A` and `UDR0`. -/
def uartOnRxCompleteISR (r : RxRing) (status c : UInt8) : RxRing :=
  if rxError status then r else r.put uartRxRingSize c

/-! ### Runs -/

/-- The driver with the history of the ring. -/
structure UartSys where
  drv : RxRing
  /-- The bytes accepted so far. -/
  accepted : List UInt8 := []
  /-- The numbers of the bytes over which the handler moved the reader's index. -/
  lost : List ℕ := []
  /-- What the reads returned, with its number. -/
  returned : List (ℕ × UInt8) := []

namespace UartSys

variable (t : UartSys)

/-- The number of the oldest byte that is neither lost nor returned. -/
def next : ℕ := t.lost.length + t.returned.length

/-- What has been accepted, lost and returned, as numbers. -/
def ledger : Ledger := ⟨t.accepted.length, t.lost, t.returned.map Prod.fst⟩

/-- The bytes accepted but neither lost nor returned, by number. -/
def unread : List ℕ := t.ledger.waiting

/-- A receive interrupt. -/
def receive (status c : UInt8) : UartSys :=
  let drv := uartOnRxCompleteISR t.drv status c
  { drv := drv
    accepted := if rxError status then t.accepted else t.accepted ++ [c]
    lost := if drv.rxHead = t.drv.rxHead then t.lost else t.lost ++ [t.next]
    returned := t.returned }

/-- A call of `_uart_read`. -/
def read : UartSys :=
  let (c, drv) := uartRead t.drv
  { t with
    drv := drv
    returned := if t.drv.rxHead = t.drv.rxTail then t.returned
      else t.returned ++ [(t.next, c)] }

end UartSys

/-- What happens to the buffer. -/
inductive UartEvent
  | receive (status c : UInt8)
  | read

/-- What an event does. -/
def uartStep (t : UartSys) : UartEvent → UartSys
  | .receive status c => t.receive status c
  | .read => t.read

/-- What holds after every run. -/
structure UartCorrect (t : UartSys) : Prop where
  head_lt : t.drv.rxHead < 8
  tail_lt : t.drv.rxTail < 8
  /-- The ring holds the unread bytes in order; they are the last ones accepted. -/
  held : t.unread.map (t.accepted[·]?) = (t.drv.bytes uartRxRingSize).map some
  recent : t.drv.bytes uartRxRingSize = t.accepted.rtake (t.drv.bytes uartRxRingSize).length
  few : (t.drv.bytes uartRxRingSize).length ≤ 7
  /-- A read returns the oldest byte and removes it. -/
  read_byte : ∀ c l, t.drv.bytes uartRxRingSize = c :: l →
    (uartRead t.drv).1 = c ∧ (uartRead t.drv).2.bytes uartRxRingSize = l
  /-- With no unread byte a read returns zero and changes nothing. -/
  read_none : t.drv.bytes uartRxRingSize = [] → uartRead t.drv = (0, t.drv)
  /-- What was returned came in order, each byte once, and none of it was lost. -/
  returned_order : (t.returned.map Prod.fst).Pairwise (· < ·)
  /-- Each byte returned is the accepted one with its number. -/
  returned_byte : ∀ d ∈ t.returned, t.accepted[d.1]? = some d.2 ∧ d.1 ∉ t.lost
  /-- A byte with an error changes nothing. -/
  rejected : ∀ status c, rxError status = true → t.receive status c = t
  /-- Any other byte comes last; it costs the oldest one when seven are unread. -/
  accepts : ∀ status c, rxError status = false →
    (t.receive status c).drv.bytes uartRxRingSize
        = (t.drv.bytes uartRxRingSize ++ [c]).rtake 7 ∧
      ((t.drv.bytes uartRxRingSize).length < 7 → (t.receive status c).lost = t.lost) ∧
      ((t.drv.bytes uartRxRingSize).length = 7 →
        ∃ i, t.unread.head? = some i ∧ (t.receive status c).lost = t.lost ++ [i])
  /-- A read loses nothing. -/
  read_lost : t.read.lost = t.lost

/-- The ring keeps the history, and the history is that of a queue. -/
structure UartInv (t : UartSys) : Prop where
  ring : t.drv.buf.Holds uartRxRingSize.toNat t.accepted t.next
  ledger : t.ledger.Ok
  returned : ∀ d ∈ t.returned, t.accepted[d.1]? = some d.2

namespace UartInv

variable {t : UartSys}

lemma start (r : RxRing) : UartInv { drv := uartStart r } where
  ring := RingBuf.holds_empty (by decide) r.rxRing
  ledger := Ledger.ok_empty
  returned := by simp

lemma next_le (h : UartInv t) : t.next ≤ t.accepted.length := h.ring.le

lemma accepted_lt (h : UartInv t) : t.accepted.length < t.next + 8 := h.ring.bound

lemma ledger_next (t : UartSys) : t.ledger.next = t.next := by
  simp [UartSys.ledger, Ledger.next, UartSys.next]

lemma bytes_eq (h : UartInv t) : t.drv.bytes uartRxRingSize = t.accepted.drop t.next :=
  RxRing.bytes_eq h.ring

lemma bytes_length (h : UartInv t) :
    (t.drv.bytes uartRxRingSize).length = t.accepted.length - t.next := by
  rw [h.bytes_eq, List.length_drop]

lemma unread_eq (h : UartInv t) : t.unread = List.range' t.next (t.accepted.length - t.next) := by
  rw [UartSys.unread, h.ledger.waiting_eq, ledger_next]
  rfl

/-- The handler moves the reader's index exactly when seven bytes are unread. -/
lemma head_eq_iff (h : UartInv t) (c : UInt8) :
    (t.drv.put uartRxRingSize c).rxHead = t.drv.rxHead ↔ t.accepted.length < t.next + 7 := by
  have hput := (RxRing.holds_put h.ring c).head
  have hlt := h.accepted_lt
  have hsize : uartRxRingSize.toNat = 8 := rfl
  rw [← UInt8.toNat_inj, show (t.drv.put uartRxRingSize c).rxHead.toNat = _ from hput,
    show t.drv.rxHead.toNat = _ from h.ring.head, hsize]
  constructor
  · intro heq
    by_contra hge
    rw [show max t.next (t.accepted.length + 2 - 8) = t.next + 1 by omega] at heq
    exact slot_ne (by omega) (by omega) heq.symm
  · intro hfree
    rw [show max t.next (t.accepted.length + 2 - 8) = t.next by omega]

/-- A byte with an error. -/
lemma receive_error {status : UInt8} (herr : rxError status = true) (c : UInt8) :
    t.receive status c = t := by
  simp [UartSys.receive, uartOnRxCompleteISR, herr]

/-- An accepted byte. -/
lemma receive_eq (h : UartInv t) {status : UInt8} (hok : rxError status = false) (c : UInt8) :
    t.receive status c =
      { drv := t.drv.put uartRxRingSize c
        accepted := t.accepted ++ [c]
        lost := if t.accepted.length < t.next + 7 then t.lost else t.lost ++ [t.next]
        returned := t.returned } := by
  simp only [UartSys.receive, uartOnRxCompleteISR, hok, Bool.false_eq_true, if_false,
    h.head_eq_iff c]

lemma receive (h : UartInv t) (status c : UInt8) : UartInv (t.receive status c) := by
  rcases Bool.eq_false_or_eq_true (rxError status) with herr | hok
  · rw [receive_error herr]
    exact h
  · have hle := h.next_le
    have hlt := h.accepted_lt
    have hsize : uartRxRingSize.toNat = 8 := rfl
    have hring := RxRing.holds_put h.ring c
    rw [hsize] at hring
    have hold : ∀ d ∈ t.returned, (t.accepted ++ [c])[d.1]? = some d.2 := fun d hd => by
      have hd' := h.returned d hd
      have hlt' := (List.getElem?_eq_some_iff.1 hd').1
      rw [List.getElem?_append_left hlt', hd']
    rw [h.receive_eq hok]
    by_cases hfree : t.accepted.length < t.next + 7
    · rw [if_pos hfree]
      rw [show max t.next (t.accepted.length + 2 - 8) = t.next by omega] at hring
      refine ⟨hring, ?_, hold⟩
      simpa [UartSys.ledger] using h.ledger.push
    · rw [if_neg hfree]
      have hnext : t.next + 1 = max t.next (t.accepted.length + 2 - 8) := by omega
      rw [← hnext] at hring
      have hlost : (t.lost ++ [t.next]).length + t.returned.length = t.next + 1 := by
        simp only [List.length_append, List.length_singleton, UartSys.next]
        omega
      rw [← hlost] at hring
      refine ⟨hring, ?_, hold⟩
      -- the oldest byte makes room
      have hledger := h.ledger.push.drop (by
        simp only [Ledger.next, UartSys.ledger, UartSys.next, List.length_map] at *
        omega)
      simpa [UartSys.ledger, Ledger.next, UartSys.next] using hledger

/-- A read, with the queue not empty or empty. -/
lemma uartRead_eq (h : UartInv t) :
    uartRead t.drv = if t.next = t.accepted.length then (0, t.drv)
      else (t.drv.rxRing t.drv.rxHead.toNat,
        { t.drv with rxHead := rxNext uartRxRingSize t.drv.rxHead }) := by
  rw [uartRead]
  simp only [RxRing.head_eq_tail_iff h.ring]

lemma read_eq (h : UartInv t) : t.read = if t.next = t.accepted.length then t else
    { t with
      drv := { t.drv with rxHead := rxNext uartRxRingSize t.drv.rxHead }
      returned := t.returned ++ [(t.next, t.drv.rxRing t.drv.rxHead.toNat)] } := by
  rw [UartSys.read, h.uartRead_eq]
  simp only [RxRing.head_eq_tail_iff h.ring]
  split <;> rfl

lemma read (h : UartInv t) : UartInv t.read := by
  have hle := h.next_le
  rw [h.read_eq]
  split
  · exact h
  · next hne =>
    have hlt : t.next < t.accepted.length := by omega
    have hbyte := RxRing.byte_head h.ring hlt
    have hret : t.lost.length + (t.returned ++ [(t.next, t.drv.rxRing t.drv.rxHead.toNat)]).length
        = t.next + 1 := by
      simp only [List.length_append, List.length_singleton, UartSys.next]
      omega
    have hring := RxRing.holds_next h.ring hlt
    rw [← hret] at hring
    refine ⟨hring, ?_, fun d hd => ?_⟩
    · have := h.ledger.pop (by rw [ledger_next]; exact hlt)
      rw [ledger_next] at this
      simpa [UartSys.ledger] using this
    · rcases List.mem_append.1 hd with hd | hd
      · exact h.returned d hd
      · rw [List.mem_singleton.1 hd]
        exact hbyte

lemma step (h : UartInv t) (e : UartEvent) : UartInv (uartStep t e) := by
  cases e with
  | receive status c => exact h.receive status c
  | read => exact h.read

lemma held (h : UartInv t) :
    t.unread.map (t.accepted[·]?) = (t.drv.bytes uartRxRingSize).map some := by
  have hle := h.next_le
  rw [h.unread_eq, h.bytes_eq]
  apply List.ext_getElem?
  intro k
  rw [List.getElem?_map, List.getElem?_map, List.getElem?_drop]
  rcases Nat.lt_or_ge k (t.accepted.length - t.next) with hk | hk
  · rw [List.getElem?_range' hk, Nat.one_mul, List.getElem?_eq_getElem (by omega), Option.map_some,
      Option.map_some, List.getElem?_eq_getElem (by omega)]
  · rw [List.getElem?_eq_none (by simpa using hk), List.getElem?_eq_none (by omega),
      Option.map_none, Option.map_none]

lemma read_byte (h : UartInv t) {c : UInt8} {l : List UInt8}
    (hl : t.drv.bytes uartRxRingSize = c :: l) :
    (uartRead t.drv).1 = c ∧ (uartRead t.drv).2.bytes uartRxRingSize = l := by
  have hlen := h.bytes_length
  rw [hl, List.length_cons] at hlen
  have hlt : t.next < t.accepted.length := by omega
  rw [h.bytes_eq, List.drop_eq_getElem_cons hlt, List.cons.injEq] at hl
  have hbyte := RxRing.byte_head h.ring hlt
  rw [List.getElem?_eq_getElem hlt, Option.some.injEq] at hbyte
  rw [h.uartRead_eq, if_neg (by omega)]
  exact ⟨by rw [← hbyte, hl.1],
    by rw [← hl.2]; exact RxRing.bytes_eq (RxRing.holds_next h.ring hlt)⟩

lemma accepts (h : UartInv t) {status : UInt8} (hok : rxError status = false) (c : UInt8) :
    (t.receive status c).drv.bytes uartRxRingSize
        = (t.drv.bytes uartRxRingSize ++ [c]).rtake 7 ∧
      ((t.drv.bytes uartRxRingSize).length < 7 → (t.receive status c).lost = t.lost) ∧
      ((t.drv.bytes uartRxRingSize).length = 7 →
        ∃ i, t.unread.head? = some i ∧ (t.receive status c).lost = t.lost ++ [i]) := by
  have hle := h.next_le
  have hring := RxRing.holds_put h.ring c
  refine ⟨?_, fun hfew => ?_, fun hfull => ?_⟩
  · rw [h.receive_eq hok, h.bytes_eq, ← RingBuf.drop_append_eq_rtake hle]
    exact RxRing.bytes_eq hring
  · rw [h.bytes_length] at hfew
    rw [h.receive_eq hok, if_pos (by omega)]
  · rw [h.bytes_length] at hfull
    rw [h.receive_eq hok, if_neg (by omega)]
    refine ⟨t.next, ?_, rfl⟩
    rw [h.unread_eq, List.head?_range', if_neg (by omega)]

lemma correct (h : UartInv t) : UartCorrect t where
  head_lt := h.ring.head_lt
  tail_lt := h.ring.tail_lt
  held := h.held
  recent := by
    have hle := h.next_le
    rw [h.bytes_eq, List.rtake, List.length_drop, show t.accepted.length
      - (t.accepted.length - t.next) = t.next by omega]
  few := by
    have := h.accepted_lt
    rw [h.bytes_length]
    omega
  read_byte _ _ hl := h.read_byte hl
  read_none hnil := by
    have hlen := h.bytes_length
    have hle := h.next_le
    rw [hnil, List.length_nil] at hlen
    rw [h.uartRead_eq, if_pos (by omega)]
  returned_order := h.ledger.taken_sorted
  returned_byte d hd :=
    ⟨h.returned d hd, fun hlost => h.ledger.disjoint _ hlost (List.mem_map_of_mem hd)⟩
  rejected _ c herr := receive_error herr c
  accepts _ c hok := h.accepts hok c
  read_lost := by
    rw [h.read_eq]
    split <;> rfl

end UartInv

/-- **The receive ring of the AVR over whole runs.**  From `_uart_start` on, whatever
the line delivers and whenever the main program reads. -/
theorem uartRun_correct (r : RxRing) (evs : List UartEvent) :
    UartCorrect (run uartStep { drv := uartStart r } evs) :=
  (run_invariant (fun _ e h => h.step e) (UartInv.start r) evs).correct

end EvtDrivenOs.Uart
