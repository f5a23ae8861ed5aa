/-
Where the interrupt requests go behind the set-up.
-/
import EvtDrivenOs.Irq.Setup
import Mathlib.Tactic.IntervalCases

namespace EvtDrivenOs.Irq

open EvtDrivenOs.Lib.X64

/-! ### The gate -/

lemma getLsbD_ffff (i : ℕ) : (0xFFFF : BitVec 64).getLsbD i = decide (i < 16) := by
  have h : (0xFFFF : BitVec 64).getLsbD i = (2 ^ 16 - 1).testBit i := rfl
  rw [h, Nat.testBit_two_pow_sub_one]

/-- The offset is put together again from its parts. -/
lemma gate_offset (v : BitVec 64) :
    let lo := (v &&& 0xFFFF).setWidth 16
    let mid := (v >>> 16 &&& 0xFFFF).setWidth 16
    let hi := (v >>> 32).setWidth 32
    (hi.extractLsb' 24 8 ++ hi.extractLsb' 16 8 ++ hi.extractLsb' 8 8 ++ hi.extractLsb' 0 8 ++
      mid.extractLsb' 8 8 ++ mid.extractLsb' 0 8 ++ lo.extractLsb' 8 8 ++ lo.extractLsb' 0 8 :
        BitVec 64) = v := by
  intro lo mid hi
  apply BitVec.eq_of_getLsbD_eq
  intro i hlt
  simp only [lo, mid, hi, BitVec.getLsbD_append, BitVec.getLsbD_extractLsb',
    BitVec.getLsbD_setWidth, BitVec.getLsbD_and, BitVec.getLsbD_ushiftRight, getLsbD_ffff]
  interval_cases i <;> simp

lemma gateAt_stored (m : BitVec 64 → BitVec 8) (a offset : BitVec 64) :
    gateAt (stored m a (gateBytes offset)) a = ⟨kernelCode, 0, interruptGate, offset⟩ := by
  have hb : Bytes (stored m a (gateBytes offset)) a (gateBytes offset) := by
    apply bytes_stored
    simp [gateBytes]
  rw [gateAt, Gate.mk.injEq]
  dsimp only
  rw [hb 0 _ rfl, hb 1 _ rfl, hb 2 _ rfl, hb 3 _ rfl, hb 4 _ rfl,
    hb 5 _ rfl, hb 6 _ rfl, hb 7 _ rfl, hb 8 _ rfl, hb 9 _ rfl, hb 10 _ rfl, hb 11 _ rfl]
  exact ⟨by decide, rfl, rfl, gate_offset offset⟩

/-! ### The redirection -/

section Redirect

variable {io : Ioapic} {n : ℕ}

/-- The entry that leads to a vector of the first processor, with what cannot be written. -/
def entryFor (v : BitVec 32) (old : BitVec 64) : BitVec 64 :=
  (0 : BitVec 32) ++ (v &&& ~~~readOnly ||| old.setWidth 32 &&& readOnly)

lemma setWidth_append_low (x y : BitVec 32) : (x ++ y : BitVec 64).setWidth 32 = y := by
  apply BitVec.eq_of_getLsbD_eq
  intro i hi
  simp only [BitVec.getLsbD_setWidth, BitVec.getLsbD_append, hi]
  simp

lemma redirected_entry (hn : n < 120) {i : BitVec 32} (hi : i.toNat = 0x10 + 2 * n)
    (v : BitVec 32) :
    (io.redirected i v).entry = Function.update io.entry n (entryFor v (io.entry n)) := by
  have hlow : (i.setWidth 8).toNat = 0x10 + 2 * n := by
    rw [BitVec.toNat_setWidth, hi]
    omega
  have hhigh : ((i + 1).setWidth 8).toNat = 0x10 + 2 * n + 1 := by
    rw [BitVec.toNat_setWidth, BitVec.toNat_add, hi]
    have h1 : (1 : BitVec 32).toNat = 1 := rfl
    omega
  have hlt : ¬ 0x10 + 2 * n < 0x10 := by omega
  have hlt' : ¬ 0x10 + 2 * n + 1 < 0x10 := by omega
  have hidx : (0x10 + 2 * n - 0x10) / 2 = n := by omega
  have hidx' : (0x10 + 2 * n + 1 - 0x10) / 2 = n := by omega
  have heven : (0x10 + 2 * n) % 2 = 0 := by omega
  have hodd : ¬ (0x10 + 2 * n + 1) % 2 = 0 := by omega
  have hfirst : ((io.select i).window v).entry = Function.update io.entry n
      ((io.entry n).extractLsb' 32 32 ++
        (v &&& ~~~readOnly ||| (io.entry n).setWidth 32 &&& readOnly)) := by
    rw [Ioapic.window]
    simp only [Ioapic.select, hlow, if_neg hlt, hidx, heven, if_true]
  have hsecond : ∀ io' : Ioapic, ((io'.select (i + 1)).window 0).entry =
      Function.update io'.entry n ((0 : BitVec 32) ++ (io'.entry n).setWidth 32) := by
    intro io'
    rw [Ioapic.window]
    simp only [Ioapic.select, hhigh, if_neg hlt', hidx', if_neg hodd]
  rw [Ioapic.redirected, hsecond, hfirst, Function.update_self, Function.update_idem, entryFor,
    setWidth_append_low]

/-- How an entry for the vector of the keyboard is read. -/
lemma entryFor_keyboard (old : BitVec 64) :
    vectorOf (entryFor 0x21 old) = 0x21 ∧ deliveryOf (entryFor 0x21 old) = 0 ∧
      logical (entryFor 0x21 old) = false ∧ masked (entryFor 0x21 old) = false ∧
      destination (entryFor 0x21 old) = 0 := by
  have hbit : ∀ i, (entryFor 0x21 old).getLsbD i = if i < 32 then
      (((0x21 : BitVec 32).getLsbD i && (decide (i < 32) && !readOnly.getLsbD i)) ||
        (decide (i < 32) && old.getLsbD i && readOnly.getLsbD i)) else false := by
    intro i
    simp only [entryFor, BitVec.getLsbD_append, BitVec.getLsbD_or, BitVec.getLsbD_and,
      BitVec.getLsbD_not, BitVec.getLsbD_setWidth]
    split
    · rfl
    · simp
  refine ⟨?_, ?_, ?_, ?_, ?_⟩
  · apply BitVec.eq_of_getLsbD_eq
    intro i hi
    rw [vectorOf, BitVec.getLsbD_extractLsb', hbit]
    interval_cases i <;> simp [readOnly]
  · apply BitVec.eq_of_getLsbD_eq
    intro i hi
    rw [deliveryOf, BitVec.getLsbD_extractLsb', hbit]
    interval_cases i <;> simp [readOnly]
  · rw [logical, hbit]
    simp [readOnly]
  · rw [masked, hbit]
    simp [readOnly]
  · apply BitVec.eq_of_getLsbD_eq
    intro i hi
    rw [destination, BitVec.getLsbD_extractLsb', hbit, if_neg (by omega)]
    simp

end Redirect

/-! ### The set-up as a whole -/

/-- The state after a reset, as far as it matters: the lines but that of the keyboard are masked,
and the table of gates is empty.  The processor is the one whose local APIC has the number 0, to
which `_ioapic_redirect_irq` leads every line. -/
structure Reset (lay : Layout) (h : Hart) : Prop where
  /-- The number of the local APIC. -/
  id : h.lapic.id = 0
  masked : ∀ n < 24, n ≠ 1 → masked (h.ioapic.entry n) = true
  idt : ∀ i < 4096, h.mem (lay.idt64 + BitVec.ofNat 64 i) = 0

/-- The address of a gate. -/
def Layout.gate (lay : Layout) (v : ℕ) : BitVec 64 := lay.idt64 + BitVec.ofNat 64 (16 * v)

/-- The registers are as they were. -/
structure Unharmed (h t : Hart) : Prop where
  regs : t.rax = h.rax ∧ t.rbx = h.rbx ∧ t.rcx = h.rcx ∧ t.rdx = h.rdx ∧ t.rsi = h.rsi ∧
    t.rdi = h.rdi ∧ t.r8 = h.r8 ∧ t.r9 = h.r9 ∧ t.r10 = h.r10 ∧ t.r11 = h.r11 ∧ t.r12 = h.r12
  rsp : t.rsp = h.rsp
  stack : t.stack = h.stack

/-- A call of a routine that keeps the stack. -/
lemma Hart.call_keeps {k t : Hart} {ra : BitVec 64} {f : Hart → Option Hart}
    (hf : f (k.push ra) = some t) (hstack : t.stack = (k.push ra).stack)
    (hrsp : t.rsp = (k.push ra).rsp) :
    k.call ra f = some { t with stack := k.stack, rsp := k.rsp } := by
  have hsp : (k.push ra).rsp + 8 = k.rsp := BitVec.sub_add_cancel _ _
  rw [Hart.call_eq hf hstack, hrsp, hsp]

section Whole

variable (lay : Layout) (h : Hart) (ra : BitVec 64)

lemma call_idtSetGate : h.call ra (idtSetGate lay) =
    some { h with mem := stored h.mem (h.rdi * 16 + lay.idt64) (gateBytes h.rsi) } :=
  Hart.call_keeps (idtSetGate_eq lay (h.push ra)) rfl rfl

lemma call_lapicEnable : ∃ io, h.call ra (lapicEnable lay) =
    some { h with pics := picsDisabled, log := h.log ++ io,
                  msr := Function.update h.msr 0x1B (h.msr 0x1B ||| 1#64 <<< 11)
                  lapic := h.lapic.write SVR_REG (h.lapic.read SVR_REG ||| 0x100) } := by
  obtain ⟨io, hio⟩ := lapicEnable_eq lay (h.push ra)
  exact ⟨io, Hart.call_keeps hio rfl rfl⟩

lemma call_lapicTimer {fuel k : ℕ} (hk : k < fuel) (hzero : PitZero (h.inp 0x40) k) :
    ∃ ws io, h.call ra (lapicTimer lay fuel) =
      some { h with mem := stored h.mem lay.lapicTimerFreqHz (timerVars h.lapic.count)
                    lapic := timerOn h.lapic
                    log := h.log ++ io
                    inp := Function.update h.inp 0x40 ws } := by
  obtain ⟨ws, io, hio⟩ := lapicTimer_eq lay (h := h.push ra) hk hzero
  exact ⟨ws, io, Hart.call_keeps hio rfl rfl⟩

lemma call_ioapicRedirectIrq : h.call ra ioapicRedirectIrq =
    some { h with ioapic := h.ioapic.redirected (0x10#32 + (h.rdi <<< 1).setWidth 32)
                    (h.rsi.setWidth 32) } :=
  Hart.call_keeps (ioapicRedirectIrq_eq (h.push ra)) rfl rfl

end Whole

/-- What the set-up leaves. -/
lemma irqsExceptions_eq (lay : Layout) {fuel k : ℕ} {h : Hart} (hk : k < fuel)
    (hzero : PitZero (h.inp 0x40) k) : ∃ ws io, irqsExceptions lay fuel h =
      some { h with
        mem := stored (stored h.mem (0x21 * 16 + lay.idt64) (gateBytes lay.isrKeyboard))
          lay.lapicTimerFreqHz (timerVars h.lapic.count)
        pics := picsDisabled
        msr := Function.update h.msr 0x1B (h.msr 0x1B ||| 1#64 <<< 11)
        lapic := timerOn (h.lapic.write SVR_REG (h.lapic.read SVR_REG ||| 0x100))
        ioapic := h.ioapic.redirected 0x12 0x21
        idtr := ⟨256 * 16 - 1, lay.idt64⟩
        log := h.log ++ io
        inp := Function.update h.inp 0x40 ws } := by
  let k₀ := (((h.push h.rdi).push h.rsi).movRdi 0x21).movRsi lay.isrKeyboard
  have h₁ : k₀.call (lay.behind 0) (idtSetGate lay) = some { k₀ with
      mem := stored h.mem (0x21 * 16 + lay.idt64) (gateBytes lay.isrKeyboard) } :=
    call_idtSetGate lay k₀ (lay.behind 0)
  obtain ⟨io₁, h₂⟩ := call_lapicEnable lay { k₀ with
    mem := stored h.mem (0x21 * 16 + lay.idt64) (gateBytes lay.isrKeyboard) } (lay.behind 1)
  let k₂ : Hart := { k₀ with
    mem := stored h.mem (0x21 * 16 + lay.idt64) (gateBytes lay.isrKeyboard)
    pics := picsDisabled
    log := h.log ++ io₁
    msr := Function.update h.msr 0x1B (h.msr 0x1B ||| 1#64 <<< 11)
    lapic := h.lapic.write SVR_REG (h.lapic.read SVR_REG ||| 0x100) }
  have h₂' : _ = some k₂ := h₂
  obtain ⟨ws, io₂, h₃⟩ := call_lapicTimer lay k₂ (lay.behind 2) hk hzero
  refine ⟨ws, io₁ ++ io₂, ?_⟩
  rw [irqsExceptions, h₁, Option.bind_eq_bind, Option.bind_some, h₂', Option.bind_some, h₃,
    Option.bind_some, call_ioapicRedirectIrq, Option.bind_some]
  simp only [k₀, k₂, Hart.push, Machine.push, Hart.movRdi, Hart.movRsi, Hart.lidt, Hart.popRsi,
    Hart.popRdi, Hart.drop, Machine.drop, Machine.top, List.headD_cons, List.tail_cons,
    BitVec.sub_add_cancel, List.append_assoc]
  rfl

section Result

variable {lay : Layout} {h : Hart}

/-- The memory behind the set-up. -/
def memAfter (lay : Layout) (h : Hart) : BitVec 64 → BitVec 8 :=
  stored (stored h.mem (0x21 * 16 + lay.idt64) (gateBytes lay.isrKeyboard)) lay.lapicTimerFreqHz
    (timerVars h.lapic.count)

lemma length_gateBytes (v : BitVec 64) : (gateBytes v).length = 16 := by simp [gateBytes]

lemma length_timerVars (count : BitVec 32) : (timerVars count).length = 12 := by simp [timerVars]

/-- How far a byte of the table is behind another address. -/
lemma toNat_idt_sub (a b : BitVec 64) (j : ℕ) (hj : j < 4096) :
    (a + BitVec.ofNat 64 j - b).toNat = (2 ^ 64 + j - (b - a).toNat) % 2 ^ 64 := by
  have ha := a.isLt
  have hb := b.isLt
  have hd := (b - a).isLt
  rw [BitVec.toNat_sub] at hd
  simp only [BitVec.toNat_sub, BitVec.toNat_add, BitVec.toNat_ofNat]
  omega

/-- In the table only the one gate has been stored. -/
lemma memAfter_idt {j : ℕ} (hj : j < 4096) (hout : j < 16 * 0x21 ∨ 16 * 0x22 ≤ j) :
    memAfter lay h (lay.idt64 + BitVec.ofNat 64 j) = h.mem (lay.idt64 + BitVec.ofNat 64 j) := by
  obtain ⟨hlo, hhi⟩ := lay.apart
  have hgate : (0x21 * 16 + lay.idt64 - lay.idt64).toNat = 16 * 0x21 := by
    rw [BitVec.add_sub_cancel]
    rfl
  rw [memAfter, stored_of_le, stored_of_le]
  · rw [length_gateBytes, toNat_idt_sub _ _ _ hj, hgate]
    omega
  · rw [length_timerVars, toNat_idt_sub _ _ _ hj]
    omega

lemma gateAt_congr {m m' : BitVec 64 → BitVec 8} {a : BitVec 64}
    (h : ∀ i < 16, m (a + BitVec.ofNat 64 i) = m' (a + BitVec.ofNat 64 i)) :
    gateAt m a = gateAt m' a := by
  simp only [gateAt, h 0 (by decide), h 1 (by decide), h 2 (by decide), h 3 (by decide),
    h 4 (by decide), h 5 (by decide), h 6 (by decide), h 7 (by decide), h 8 (by decide),
    h 9 (by decide), h 10 (by decide), h 11 (by decide)]

lemma memAfter_gate : gateAt (memAfter lay h) (lay.idt64 + BitVec.ofNat 64 (16 * 0x21)) =
    ⟨kernelCode, 0, interruptGate, lay.isrKeyboard⟩ := by
  obtain ⟨hlo, hhi⟩ := lay.apart
  have haddr : lay.idt64 + BitVec.ofNat 64 (16 * 0x21) = 0x21 * 16 + lay.idt64 :=
    BitVec.add_comm _ _
  rw [← gateAt_stored h.mem (0x21 * 16 + lay.idt64) lay.isrKeyboard, haddr]
  apply gateAt_congr
  intro i hi
  rw [memAfter, ← haddr, BitVec.add_assoc, ← BitVec.ofNat_add, stored_of_le]
  rw [length_timerVars, toNat_idt_sub _ _ _ (by omega)]
  omega

/-- Behind the set-up a vector has a handler if it is that of the keyboard. -/
lemma gateAt_memAfter (hidt : ∀ i < 4096, h.mem (lay.idt64 + BitVec.ofNat 64 i) = 0) {v : ℕ}
    (hv : v < 256) (hne : v ≠ 0x21) :
    (gateAt (memAfter lay h) (lay.idt64 + BitVec.ofNat 64 (16 * v))).typeAttr ≠ interruptGate := by
  have hbyte : memAfter lay h (lay.idt64 + BitVec.ofNat 64 (16 * v) + BitVec.ofNat 64 5) = 0 := by
    rw [BitVec.add_assoc, ← BitVec.ofNat_add, memAfter_idt (by omega) (by omega)]
    exact hidt _ (by omega)
  rw [gateAt]
  dsimp only
  rw [hbyte]
  decide

variable {t : Hart}

lemma handler_eq (hidt : ∀ i < 4096, h.mem (lay.idt64 + BitVec.ofNat 64 i) = 0)
    (hmem : t.mem = memAfter lay h) (hidtr : t.idtr = ⟨256 * 16 - 1, lay.idt64⟩) {v : ℕ}
    (hv : v < 256) : t.handler v = if v = 0x21 then some lay.isrKeyboard else none := by
  rw [Hart.handler, hmem, hidtr]
  dsimp only
  by_cases heq : v = 0x21
  · rw [if_pos heq, heq, memAfter_gate, if_pos ⟨by decide, rfl, rfl⟩]
  · rw [if_neg heq, if_neg]
    rintro ⟨-, hgate, -⟩
    exact gateAt_memAfter hidt hv heq hgate

/-- The controller of the processor is on, and the timer does not matter for that. -/
lemma lapicOn_eq
    (hmsr : t.msr = Function.update h.msr 0x1B (h.msr 0x1B ||| 1#64 <<< 11))
    (hlapic : t.lapic = timerOn (h.lapic.write SVR_REG (h.lapic.read SVR_REG ||| 0x100))) :
    t.lapicOn = true := by
  have hsvr : t.lapic.reg SVR_REG = h.lapic.read SVR_REG ||| 0x100 := by
    rw [hlapic]
    rfl
  rw [Hart.lapicOn, hsvr, hmsr, Function.update_self]
  simp

lemma deliver_eq (hid : h.lapic.id = 0)
    (hmasked : ∀ n < 24, n ≠ 1 → masked (h.ioapic.entry n) = true)
    (hhandler : t.handler 0x21 = some lay.isrKeyboard) (hon : t.lapicOn = true)
    (hlapic : t.lapic = timerOn (h.lapic.write SVR_REG (h.lapic.read SVR_REG ||| 0x100)))
    (hioapic : t.ioapic = h.ioapic.redirected 0x12 0x21) {n : ℕ} (hn : n < 24) :
    t.deliver n = if n = 1 then some lay.isrKeyboard else none := by
  have hid' : t.lapic.id = 0 := by
    rw [hlapic, ← hid]
    rfl
  have hentry : t.ioapic.entry = Function.update h.ioapic.entry 1
      (entryFor 0x21 (h.ioapic.entry 1)) := by
    rw [hioapic, redirected_entry (show 1 < 120 by decide) rfl]
  rw [Hart.deliver, hentry]
  by_cases heq : n = 1
  · obtain ⟨hvec, hdel, hlog, hmask, hdest⟩ := entryFor_keyboard (h.ioapic.entry 1)
    rw [if_pos heq, heq, Function.update_self, hvec, hdel, hlog, hmask, hdest, hid', hon]
    exact hhandler
  · rw [if_neg heq, Function.update_of_ne heq, hmasked n hn heq]
    rfl

end Result

/-- **Where the requests go.**  Behind the set-up, of the lines of the I/O APIC that of the
keyboard leads to its handler and no other leads anywhere; no other vector has a handler, and
none of the requests of the 8259 gets through, whatever these were doing. -/
theorem irqsExceptions_routes (lay : Layout) {fuel k : ℕ} {h : Hart} (hr : Reset lay h)
    (hk : k < fuel) (hzero : PitZero (h.inp 0x40) k) :
    ∃ t, irqsExceptions lay fuel h = some t ∧
      (∀ n < 24, t.deliver n = if n = 1 then some lay.isrKeyboard else none) ∧
      (∀ v < 256, t.handler v = if v = 0x21 then some lay.isrKeyboard else none) ∧
      (∀ n < 16, t.pics.passes n = false) ∧
      Unharmed h t ∧
      Bytes t.mem lay.lapicTimerFreqHz (bytesOf 8 (frequency h.lapic.count)) ∧
      ∀ x, 16 ≤ (x - lay.gate 0x21).toNat → 12 ≤ (x - lay.lapicTimerFreqHz).toNat →
        t.mem x = h.mem x := by
  obtain ⟨ws, io, hio⟩ := irqsExceptions_eq lay hk hzero
  obtain ⟨t, ht⟩ : ∃ t, irqsExceptions lay fuel h = some t := ⟨_, hio⟩
  have hteq := Option.some.inj (ht.symm.trans hio)
  have hmem : t.mem = memAfter lay h := by rw [hteq]; rfl
  have hidtr : t.idtr = ⟨256 * 16 - 1, lay.idt64⟩ := by rw [hteq]
  have hlapic : t.lapic = timerOn (h.lapic.write SVR_REG (h.lapic.read SVR_REG ||| 0x100)) := by
    rw [hteq]
  have hmsr : t.msr = Function.update h.msr 0x1B (h.msr 0x1B ||| 1#64 <<< 11) := by rw [hteq]
  have hioapic : t.ioapic = h.ioapic.redirected 0x12 0x21 := by rw [hteq]
  have hpics : t.pics = picsDisabled := by rw [hteq]
  have hhandler : ∀ v < 256, t.handler v = if v = 0x21 then some lay.isrKeyboard else none :=
    fun v hv => handler_eq hr.idt hmem hidtr hv
  refine ⟨t, ht, ?_, hhandler, ?_, ?_, ?_, ?_⟩
  · intro n hn
    exact deliver_eq hr.id hr.masked ((hhandler 0x21 (by decide)).trans (if_pos rfl))
      (lapicOn_eq hmsr hlapic) hlapic hioapic hn
  · rw [hpics]
    decide
  · rw [hteq]
    exact ⟨⟨rfl, rfl, rfl, rfl, rfl, rfl, rfl, rfl, rfl, rfl, rfl⟩, rfl, rfl⟩
  · rw [hmem, memAfter]
    refine (bytes_append.mp (bytes_stored ?_)).1
    rw [← timerVars, length_timerVars]
    decide
  · intro x hgate htimer
    rw [Layout.gate, BitVec.add_comm] at hgate
    rw [hmem, memAfter, stored_of_le (by rwa [length_timerVars]),
      stored_of_le (by rwa [length_gateBytes])]

/-- Somewhere in the first gigabyte. -/
def placedLayout : Layout where
  idt64 := 0x110000
  isrKeyboard := 0x101000
  lapicTimerFreqHz := 0x112000
  behind n := 0x102000 + BitVec.ofNat 64 n
  apart := by decide

/-- Both 8259 are in the middle of something. -/
def resetHart : Hart where
  rax := 0
  rbx := 0
  rcx := 0
  rdx := 0
  rsi := 0
  rdi := 0
  r8 := 0
  r12 := 0
  rsp := 0x180000
  df := false
  stack := []
  mem _ := 0
  inp _ := Stream'.const 0
  log := []
  r9 := 0
  r10 := 0
  r11 := 0
  pics := ⟨⟨.icw3, false, true, 8, 4, 1, 0⟩, ⟨.icw2, false, true, 0x70, 2, 1, 0⟩⟩
  ioapic := ⟨0, fun _ => 0x10000⟩
  lapic := ⟨0, fun _ => 0xFF, 0, 0xFFF00000⟩
  msr _ := 0xFEE00900
  idtr := ⟨0, 0⟩

theorem irqsExceptions_routes_reset :
    ∃ t, irqsExceptions placedLayout 1 resetHart = some t ∧ t.deliver 1 = some 0x101000 ∧
      t.deliver 0 = none ∧ t.pics.passes 0 = false := by
  have hmasked : masked 0x10000 = true := by decide
  have hreset : Reset placedLayout resetHart := ⟨rfl, fun _ _ _ => hmasked, fun _ _ => rfl⟩
  obtain ⟨t, ht, hdeliver, -, hpics, -⟩ :=
    @irqsExceptions_routes placedLayout 1 0 resetHart hreset Nat.zero_lt_one ⟨rfl, rfl⟩
  exact ⟨t, ht, hdeliver 1 (by decide), hdeliver 0 (by decide), hpics 0 (by decide)⟩

end EvtDrivenOs.Irq
