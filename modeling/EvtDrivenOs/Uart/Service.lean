/-
The services that hand the received bytes to the console, `uart_service` of both ports.

A service reads until the reader returns 0, which is what the reader returns for an empty
ring, and also what it returns for a byte that is 0.  So a call publishes the bytes before
the first 0 in the ring, and leaves the bytes behind it.
-/
import EvtDrivenOs.Keyb
import EvtDrivenOs.Uart.Preempt

namespace EvtDrivenOs.Uart

open EvtDrivenOs.Lib EvtDrivenOs.Keyb

/-! ### The services -/

/-- The event data for a received byte. -/
def consoleKey (c : UInt8) : ConsoleKey := { code := c.toBitVec, scanCode := 0 }

/-- `is_charValid`; a `char` with the top bit set is in none of the ranges, signed or not. -/
def isCharValid (c : UInt8) : Bool :=
  ('0'.toUInt8 ≤ c && c ≤ '9'.toUInt8) ||
    ('a'.toUInt8 ≤ c && c ≤ 'z'.toUInt8) ||
    ('A'.toUInt8 ≤ c && c ≤ 'Z'.toUInt8) ||
    (c == ':'.toUInt8 || c == ','.toUInt8 || c == '.'.toUInt8) ||
    (c == ' '.toUInt8 || c == '\n'.toUInt8 || c == '\t'.toUInt8 || c == 8 || c == 0x7f)

/-- The loop of both services, with the keys published so far; `none` when `fuel` rounds
are too few. -/
def serviceLoop (read : RxRing → UInt8 × RxRing) (accepts : UInt8 → Bool) :
    ℕ → RxRing → List ConsoleKey → Option (List ConsoleKey × RxRing)
  | 0, _, _ => none
  | fuel + 1, r, published =>
    let (c, r) := read r
    if c = 0 then some (published, r)
    else serviceLoop read accepts fuel r
      (if accepts c then published ++ [consoleKey c] else published)

/-- `uart_service` of the AVR, which publishes what `is_charValid` accepts. -/
def uartServiceAvr (fuel : ℕ) (r : RxRing) : Option (List ConsoleKey × RxRing) :=
  serviceLoop uartRead isCharValid fuel r []

/-- `uart_service` of the MicroBlaze, which publishes every byte. -/
def uartServiceMb (fuel : ℕ) (r : RxRing) : Option (List ConsoleKey × RxRing) :=
  serviceLoop (xuartliteRead · {}) (fun _ => true) fuel r []

/-- The call returns.  It has published the bytes of the ring that it accepts, in order and
once each, and the ring is empty. -/
def Drains (service : ℕ → RxRing → Option (List ConsoleKey × RxRing)) (accepts : UInt8 → Bool)
    (size : UInt8) (r : RxRing) : Prop :=
  ∃ rounds r', r'.bytes size = [] ∧ ∀ fuel ≥ rounds,
    service fuel r = some (((r.bytes size).filter accepts).map consoleKey, r')

/-! ### One read -/

section Read

variable {r : RxRing} {arrived : List UInt8} {next : ℕ}

/-- With no interrupt the two readers do the same. -/
lemma xuartliteRead_quiet (r : RxRing) : xuartliteRead r {} = uartRead r := rfl

lemma uartRead_empty (h : r.buf.Holds 8 arrived next) (heq : next = arrived.length) :
    uartRead r = (0, r) := by
  have hempty : r.rxHead = r.rxTail := (@RxRing.head_eq_tail_iff 8 _ _ _ h).2 heq
  rw [uartRead, if_pos hempty]

lemma uartRead_byte (h : r.buf.Holds 8 arrived next) (hlt : next < arrived.length) :
    uartRead r = (arrived[next], { r with rxHead := rxNext uartRxRingSize r.rxHead }) := by
  have hbyte := @RxRing.byte_head 8 _ _ _ h hlt
  have hfilled : r.rxHead ≠ r.rxTail := fun heq => by
    have := (@RxRing.head_eq_tail_iff 8 _ _ _ h).1 heq
    omega
  rw [List.getElem?_eq_getElem hlt, Option.some.injEq] at hbyte
  rw [uartRead, if_neg hfilled, hbyte]

end Read

/-! ### The whole call -/

/-- What a call of a service publishes and what it leaves. -/
lemma serviceLoop_spec (accepts : UInt8 → Bool) {r : RxRing} {arrived : List UInt8} {next : ℕ}
    (h : r.buf.Holds 8 arrived next) :
    ∃ r' : RxRing, r'.bytes 8 = ((r.bytes 8).dropWhile (· ≠ 0)).tail ∧
      ∀ fuel > arrived.length - next, ∀ published,
        serviceLoop uartRead accepts fuel r published = some
          (published ++ (((r.bytes 8).takeWhile (· ≠ 0)).filter accepts).map consoleKey, r') := by
  -- by the number of bytes that are left to read
  induction hleft : arrived.length - next generalizing r next with
  | zero =>
    have hnext : next = arrived.length := by
      have := h.le
      omega
    have hbytes : r.bytes 8 = [] := by
      rw [@RxRing.bytes_eq 8 _ _ _ h, hnext, List.drop_length]
    refine ⟨r, by rw [hbytes]; rfl, fun fuel hfuel published => ?_⟩
    obtain ⟨fuel, rfl⟩ := Nat.exists_eq_succ_of_ne_zero (Nat.pos_iff_ne_zero.1 hfuel)
    rw [serviceLoop, uartRead_empty h hnext, hbytes]
    simp
  | succ left ih =>
    have hlt : next < arrived.length := by omega
    have hread := uartRead_byte h hlt
    have hrest : RingBuf.Holds 8 ({ r with rxHead := rxNext uartRxRingSize r.rxHead } : RxRing).buf
        arrived (next + 1) := @RxRing.holds_next 8 _ _ _ h hlt
    have hbytes : r.bytes 8 = arrived[next] :: arrived.drop (next + 1) := by
      rw [@RxRing.bytes_eq 8 _ _ _ h, List.drop_eq_getElem_cons hlt]
    obtain ⟨r', hr', hloop⟩ := ih hrest (by omega)
    rw [@RxRing.bytes_eq 8 _ _ _ hrest] at hr' hloop
    rw [hbytes]
    rcases eq_or_ne arrived[next] 0 with hzero | hbyte
    · -- the byte is taken for an empty ring
      refine ⟨{ r with rxHead := rxNext uartRxRingSize r.rxHead }, ?_,
        fun fuel hfuel published => ?_⟩
      · rw [hzero]
        exact @RxRing.bytes_eq 8 _ _ _ hrest
      · obtain ⟨fuel, rfl⟩ := Nat.exists_eq_succ_of_ne_zero (by omega : fuel ≠ 0)
        rw [serviceLoop, hread, hzero]
        simp
    · refine ⟨r', ?_, fun fuel hfuel published => ?_⟩
      · rw [hr', List.dropWhile_cons_of_pos (by simpa using hbyte)]
      · obtain ⟨fuel, rfl⟩ := Nat.exists_eq_succ_of_ne_zero (by omega : fuel ≠ 0)
        rw [serviceLoop, hread, List.takeWhile_cons_of_pos (by simpa using hbyte)]
        simp only [if_neg hbyte, hloop fuel (by omega), List.filter_cons]
        split <;> simp

/-- A call drains the ring when the bytes up to the first 0 are all there is to publish,
and nothing is behind that 0. -/
lemma drains_iff (accepts : UInt8 → Bool) {r : RxRing} (hhead : r.rxHead < 8)
    (htail : r.rxTail < 8) :
    Drains (fun fuel r => serviceLoop uartRead accepts fuel r []) accepts 8 r ↔
      ((r.bytes 8).takeWhile (· ≠ 0)).filter accepts = (r.bytes 8).filter accepts ∧
        ((r.bytes 8).dropWhile (· ≠ 0)).tail = [] := by
  obtain ⟨arrived, next, h⟩ := RingBuf.exists_holds (N := 8) (r := r.buf)
    (UInt8.lt_iff_toNat_lt.1 hhead) (UInt8.lt_iff_toNat_lt.1 htail)
  obtain ⟨r', hr', hloop⟩ := serviceLoop_spec accepts h
  have hinj : Function.Injective consoleKey := fun c d heq =>
    UInt8.toBitVec_inj.1 (congrArg ConsoleKey.code heq)
  constructor
  · rintro ⟨rounds, r'', hempty, hservice⟩
    -- the two results of a long enough call are the same
    have hsame := (hloop (max rounds (arrived.length - next + 1)) (by omega) []).symm.trans
      (hservice _ (by omega))
    rw [Option.some.injEq, Prod.mk.injEq, List.nil_append] at hsame
    refine ⟨hinj.list_map hsame.1, ?_⟩
    rw [← hr', hsame.2, hempty]
  · rintro ⟨hpublished, hrest⟩
    refine ⟨arrived.length - next + 1, r', hr'.trans hrest, fun fuel hfuel => ?_⟩
    show serviceLoop uartRead accepts fuel r [] = _
    rw [hloop fuel (by omega), hpublished, List.nil_append]

section Zeros

variable {l : List UInt8}

/-- Nothing is behind the first 0 of a list just when no 0 comes before its last item. -/
lemma tail_dropWhile_eq_nil_iff : (l.dropWhile (· ≠ 0)).tail = [] ↔ 0 ∉ l.dropLast := by
  induction l with
  | nil => simp
  | cons c l ih =>
    rcases eq_or_ne c 0 with rfl | hc
    · cases l <;> simp
    · rw [List.dropWhile_cons_of_pos (by simpa using hc), ih]
      cases l with
      | nil => simp
      | cons d l => simp [hc.symm]

/-- Then only that 0 itself is left out, and it may be one that is not accepted. -/
lemma filter_takeWhile_eq {accepts : UInt8 → Bool} (hzero : accepts 0 = false)
    (h : (l.dropWhile (· ≠ 0)).tail = []) :
    (l.takeWhile (· ≠ 0)).filter accepts = l.filter accepts := by
  induction l with
  | nil => rfl
  | cons c l ih =>
    rcases eq_or_ne c 0 with rfl | hc
    · obtain rfl : l = [] := by simpa using h
      simp [hzero]
    · rw [List.dropWhile_cons_of_pos (by simpa using hc)] at h
      rw [List.takeWhile_cons_of_pos (by simpa using hc), List.filter_cons, List.filter_cons, ih h]

end Zeros

/-- **When the services drain their ring.**  The service of the AVR does so unless a 0 is
received before the last byte in the ring: it stops there and leaves what is behind.  The
service of the MicroBlaze does so when there is no 0 at all. -/
theorem uartService_drains_iff (r : RxRing) (hhead : r.rxHead < 8) (htail : r.rxTail < 8) :
    (Drains uartServiceAvr isCharValid uartRxRingSize r ↔
        0 ∉ (r.bytes uartRxRingSize).dropLast) ∧
      (Drains uartServiceMb (fun _ => true) xuartRxBuffer r ↔ 0 ∉ r.bytes xuartRxBuffer) := by
  constructor
  · refine (drains_iff isCharValid hhead htail).trans ?_
    rw [← tail_dropWhile_eq_nil_iff]
    exact ⟨And.right, fun hrest => ⟨filter_takeWhile_eq (by decide) hrest, hrest⟩⟩
  · have hmb : uartServiceMb = fun fuel r => serviceLoop uartRead (fun _ => true) fuel r [] := by
      funext fuel r
      rw [uartServiceMb, funext xuartliteRead_quiet]
    rw [hmb]
    refine (drains_iff (fun _ => true) hhead htail).trans ?_
    rw [List.filter_true, List.filter_true, List.takeWhile_eq_self_iff]
    constructor
    · rintro ⟨hall, -⟩ hmem
      exact absurd (hall 0 hmem) (by simp)
    · intro hzero
      have hall : ∀ c ∈ r.bytes 8, decide (c ≠ 0) = true := fun c hc => by
        simpa using fun heq : c = 0 => hzero (heq ▸ hc)
      exact ⟨hall, tail_dropWhile_eq_nil_iff.2 fun hmem => hzero (List.mem_of_mem_dropLast hmem)⟩

/-- A ring with `A` and `B` in it, which both services drain. -/
theorem uartService_drains_iff_letters :
    Drains uartServiceAvr isCharValid uartRxRingSize (onxUart0Irq {} [0x41, 0x42]) ∧
      Drains uartServiceMb (fun _ => true) xuartRxBuffer (onxUart0Irq {} [0x41, 0x42]) := by
  obtain ⟨havr, hmb⟩ := uartService_drains_iff (onxUart0Irq {} [0x41, 0x42]) (by decide)
    (by decide)
  exact ⟨havr.2 (by decide), hmb.2 (by decide)⟩

/-- After a 0 and an `A` were received, neither service gets as far as the `A`. -/
theorem uartService_stops :
    ¬ Drains uartServiceAvr isCharValid uartRxRingSize
        (run uartStep { drv := uartStart {} } [.receive 0 0, .receive 0 0x41]).drv ∧
      ¬ Drains uartServiceMb (fun _ => true) xuartRxBuffer (onxUart0Irq {} [0, 0x41]) := by
  constructor
  · rintro ⟨rounds, r', -, hservice⟩
    have hall := congrArg (Option.map Prod.fst) (hservice (rounds + 1) (by omega))
    -- the first read ends the call, with nothing published
    have hstop : [] = List.map consoleKey _ := Option.some.inj hall
    exact absurd hstop (by decide)
  · rintro ⟨rounds, r', -, hservice⟩
    have hall := congrArg (Option.map Prod.fst) (hservice (rounds + 1) (by omega))
    have hstop : [] = List.map consoleKey _ := Option.some.inj hall
    exact absurd hstop (by decide)

end EvtDrivenOs.Uart
