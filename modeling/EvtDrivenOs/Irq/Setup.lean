/-
The set-up of the interrupts, `_irqs_exceptions` of `irqs_excepts.asm` with what it calls from
`lapic.asm` and `ioapic.asm`.

The two 8259 are masked whatever they have been doing, the local APIC is turned on, and of the
lines of the I/O APIC that of the keyboard is led to the one gate that is set.
-/
import EvtDrivenOs.Irq.Devices

namespace EvtDrivenOs.Irq

open EvtDrivenOs.Lib.X64

/-! ### Instructions -/

namespace Hart

variable (h : Hart)

/-- `push` -/
def push (v : BitVec 64) : Hart := { h with toMachine := h.toMachine.push v }

/-- The top of the stack is left behind. -/
def drop : Hart := { h with toMachine := h.toMachine.drop }

/-- `pop rax` -/
def popRax : Hart := { h with toMachine := h.toMachine.popRax }

/-- `pop rbx` -/
def popRbx : Hart := { h with toMachine := h.toMachine.popRbx }

/-- `pop rcx` -/
def popRcx : Hart := { h with toMachine := h.toMachine.popRcx }

/-- `pop rdx` -/
def popRdx : Hart := { h with toMachine := h.toMachine.popRdx }

/-- `pop rdi` -/
def popRdi : Hart := { h.drop with rdi := h.top }

/-- `pop rsi` -/
def popRsi : Hart := { h.drop with rsi := h.top }

/-- `push ax`: a word of 16 bits is an entry of the stack as well. -/
def pushAx : Hart :=
  { h with stack := (h.rax.setWidth 16).setWidth 64 :: h.stack, rsp := h.rsp - 2 }

/-- `pop ax` -/
def popAx : Hart :=
  { h with stack := h.stack.tail, rsp := h.rsp + 2, rax := setLow16 h.rax (h.top.setWidth 16) }

/-- `mov al, v`: the rest of `rax` stays. -/
def movAl (v : BitVec 8) : Hart := { h with rax := setLow8 h.rax v }

/-- `mov ax, v`: the rest of `rax` stays. -/
def movAx (v : BitVec 16) : Hart := { h with rax := setLow16 h.rax v }

/-- `mov eax, v`, which clears the upper half of the register. -/
def movEax (v : BitVec 32) : Hart := { h with rax := v.setWidth 64 }

/-- `mov ecx, v`: the upper half of `rcx` is cleared. -/
def movEcx (v : BitVec 32) : Hart := { h with rcx := v.setWidth 64 }

/-- `mov rax, rsi` -/
def movRaxRsi : Hart := { h with rax := h.rsi }

/-- `and rax, v` -/
def andRax (v : BitVec 64) : Hart := { h with rax := h.rax &&& v }

/-- `shr rax, n` -/
def shrRax (n : ℕ) : Hart := { h with rax := h.rax >>> n }

/-- `imul rdi, v` -/
def imulRdi (v : BitVec 64) : Hart := { h with rdi := h.rdi * v }

/-- `add rdi, v` -/
def addRdi (v : BitVec 64) : Hart := { h with rdi := h.rdi + v }

/-- `mov rdi, v` -/
def movRdi (v : BitVec 64) : Hart := { h with rdi := v }

/-- `mov rsi, v` -/
def movRsi (v : BitVec 64) : Hart := { h with rsi := v }

/-- `mov rbx, v` -/
def movRbx (v : BitVec 64) : Hart := { h with rbx := v }

/-- `mov rcx, v` -/
def movRcx (v : BitVec 64) : Hart := { h with rcx := v }

/-- `sub rbx, rax` -/
def subRbxRax : Hart := { h with rbx := h.rbx - h.rax }

/-- `mov rax, rbx` -/
def movRaxRbx : Hart := { h with rax := h.rbx }

/-- `mul rcx` -/
def mulRcx : Hart :=
  let p : BitVec 128 := h.rax.setWidth 128 * h.rcx.setWidth 128
  { h with rax := p.setWidth 64, rdx := p.extractLsb' 64 64 }

/-- The lower half of `rax`. -/
def eax : BitVec 32 := h.rax.setWidth 32

/-- The two lowest bytes of `rax`. -/
def ax : BitVec 16 := h.rax.setWidth 16

/-- `out port, al` -/
def outAl (port : BitVec 16) : Hart :=
  { h with log := h.log ++ [.out port h.al], pics := h.pics.out port h.al }

/-- `in al, port` -/
def inAl (port : BitVec 16) : Hart :=
  { h with toMachine := (h.toMachine.eat port).setAl ((h.inp port).head.setWidth 8) }

/-- A store to memory. -/
def store (a : BitVec 64) (bs : List (BitVec 8)) : Hart := { h with mem := stored h.mem a bs }

/-- `mov [rdi + offset]` of a constant. -/
def storeRdi (offset : BitVec 64) (bs : List (BitVec 8)) : Hart := h.store (h.rdi + offset) bs

/-- `mov [rdi + offset], ax` -/
def storeAx (offset : BitVec 64) : Hart := h.storeRdi offset (bytesOf 2 h.ax)

/-- `mov [rdi + offset], eax` -/
def storeEax (offset : BitVec 64) : Hart := h.storeRdi offset (bytesOf 4 h.eax)

/-- A store to a register of the local APIC. -/
def storeLapic (r : ℕ) (v : BitVec 32) : Hart := { h with lapic := h.lapic.write r v }

/-- A store of 4 bytes to the I/O APIC's register select. -/
def storeSelect (v : BitVec 32) : Hart := { h with ioapic := h.ioapic.select v }

/-- A store of 4 bytes to the I/O APIC's window, for the register that is selected. -/
def storeWindow (v : BitVec 32) : Hart := { h with ioapic := h.ioapic.window v }

/-- The model specific register that `ecx` names goes to `edx` and `eax`. -/
def rdmsr : Hart :=
  let v := h.msr (h.rcx.setWidth 32)
  { h with rax := (v.setWidth 32).setWidth 64, rdx := (v.extractLsb' 32 32).setWidth 64 }

/-- The model specific register that `ecx` names gets `edx` and `eax`. -/
def wrmsr : Hart :=
  let v : BitVec 64 := h.rdx.setWidth 32 ++ h.rax.setWidth 32
  { h with msr := Function.update h.msr (h.rcx.setWidth 32) v }

/-- The table of the interrupts is where the operand says. -/
def lidt (v : Idtr) : Hart := { h with idtr := v }

/-- `call` -/
def call (ra : BitVec 64) (f : Hart → Option Hart) : Option Hart :=
  callOn push drop (·.stack) h ra f

end Hart

/-! ### The code -/

/-- Where the linker puts what the code uses. -/
structure Layout where
  idt64 : BitVec 64
  isrKeyboard : BitVec 64
  lapicTimerFreqHz : BitVec 64
  /-- The addresses behind the calls. -/
  behind : ℕ → BitVec 64
  /-- The variables of the timer are not in the table. -/
  apart : 4096 ≤ (lapicTimerFreqHz - idt64).toNat ∧ (lapicTimerFreqHz - idt64).toNat + 12 ≤ 2 ^ 64

/-- The variable behind the frequency: the divider of the timer. -/
def Layout.lapicTimerDivider (lay : Layout) : BitVec 64 := lay.lapicTimerFreqHz + 8

/-- `pic_disable`: all requests of both 8259 are masked, and their vectors are out of the way. -/
def picDisable (h : Hart) : Option Hart :=
  let h := h.pushAx
  -- mask all requests
  let h := ((h.movAl 0xFF).outAl 0x21).outAl 0xA1
  -- ICW1
  let h := ((h.movAl 0x11).outAl 0x20).outAl 0xA0
  -- ICW2: the vectors
  let h := (h.movAl 0xF0).outAl 0x21
  let h := (h.movAl 0xF8).outAl 0xA1
  -- ICW3: the wiring
  let h := (h.movAl 4).outAl 0x21
  let h := (h.movAl 2).outAl 0xA1
  -- ICW4
  let h := ((h.movAl 1).outAl 0x21).outAl 0xA1
  -- mask all requests again
  let h := ((h.movAl 0xFF).outAl 0x21).outAl 0xA1
  some h.popAx

/-- `lapic_enable`: the 8259 are off, the local APIC is on. -/
def lapicEnable (lay : Layout) (h : Hart) : Option Hart := do
  let h := ((h.push h.rax).push h.rcx).push h.rdx
  let h ← h.call (lay.behind 3) picDisable
  let h := h.movEcx 0x1B
  let h := h.rdmsr
  let h := { h with rdx := h.rdx <<< 32 }
  let h := { h with rax := h.rax ||| h.rdx }
  let h := { h with rax := h.rax ||| 1#64 <<< 11 } -- the enable flag
  let h := { h with rdx := h.rax }
  let h := { h with rdx := h.rdx >>> 32 }
  let h := h.wrmsr
  let h := h.movEax (h.lapic.read SVR_REG)
  let h := h.movEax (h.eax ||| 0x100)
  let h := h.storeLapic SVR_REG h.eax
  some h.popRdx.popRcx.popRax

/-- The counter is latched and read. -/
def pitRead (h : Hart) : Hart :=
  let h := (h.movAl 0).outAl 0x43
  let h := h.inAl 0x40
  let h := h.movAx (h.ax <<< 8)
  h.inAl 0x40

/-- The loop of `pit_wait_10ms`, until the counter is zero. -/
def pitWaitLoop : ℕ → Hart → Option Hart
  | 0, _ => none
  | fuel + 1, h =>
    let h := pitRead h
    if h.ax ≠ 0 then pitWaitLoop fuel h else some h

/-- `pit_wait10ms`: a count of 10 ms, polled until it has run out. -/
def pitWait10ms (fuel : ℕ) (h : Hart) : Option Hart := do
  let h := h.push h.rax
  let h := (h.movAl 0x38).outAl 0x43 -- channel 0, mode 4, both bytes
  let h := h.movAx 0x2E9B
  let h := h.outAl 0x40
  let h := h.movAx (h.ax >>> 8)
  let h := h.outAl 0x40
  let h ← pitWaitLoop fuel h
  some h.popRax

/-- `_lapic_timer`, to the wait: the timer is started. -/
def timerStart (lay : Layout) (h : Hart) : Hart :=
  let h := { h with rax := 0 }
  let h := h.store lay.lapicTimerFreqHz (bytesOf 8 h.rax)
  let h := h.store lay.lapicTimerDivider (bytesOf 4 h.eax)
  let h := h.storeLapic DFR_REG 0x03
  let h := h.storeLapic LVT_TIMER_REG (1#32 <<< 16 ||| 1#32 <<< 17) -- masked, periodic
  h.storeLapic TMICT_REG 0xFFFFFFFF

/-- `_lapic_timer`, from the wait on: a hundred times what has been counted. -/
def timerMeasure (lay : Layout) (h : Hart) : Hart :=
  let h := h.movEax (h.lapic.read TMCCT_REG)
  let h := (h.movRbx 0xFFFFFFFF).subRbxRax
  let h := (h.movRaxRbx.movRcx 100).mulRcx
  let h := h.store lay.lapicTimerFreqHz (bytesOf 8 h.rax)
  h.store lay.lapicTimerDivider (bytesOf 4 (0x03 : BitVec 32))

/-- `lapic_timer`: the frequency of the timer is measured over 10 ms. -/
def lapicTimer (lay : Layout) (fuel : ℕ) (h : Hart) : Option Hart := do
  let h := (((h.push h.rax).push h.rbx).push h.rcx).push h.rdx
  let h ← (timerStart lay h).call (lay.behind 4) (pitWait10ms fuel)
  some (timerMeasure lay h).popRdx.popRcx.popRbx.popRax

/-- `_ioapic_redirect_irq` -/
def ioapicRedirectIrq (h : Hart) : Option Hart :=
  let h := (((h.push h.rax).push h.rbx).push h.rcx).push h.rdi
  let h := { h with rbx := h.rdi }
  let h := { h with rbx := h.rbx <<< 1 }
  let h := h.movEax 0x10
  let h := h.movEax (h.eax + h.rbx.setWidth 32)
  let h := h.movEcx h.eax
  let h := h.movEax (h.rsi.setWidth 32)
  let h := { h with rdi := 0x40000000 }
  let h := h.storeSelect (h.rcx.setWidth 32)
  let h := h.storeWindow h.eax
  let h := h.movEax 0 -- the first processor always
  let h := h.movEcx (h.rcx.setWidth 32 + 1)
  let h := h.storeSelect (h.rcx.setWidth 32)
  let h := h.storeWindow h.eax
  some h.popRdi.popRcx.popRbx.popRax

/-- `idt_set_gate`: `rdi` has the vector, `rsi` the address of its handler. -/
def idtSetGate (lay : Layout) (h : Hart) : Option Hart :=
  let h := (h.push h.rdi).push h.rax
  let h := (h.imulRdi 16).addRdi lay.idt64
  let h := h.movRaxRsi.andRax 0xFFFF
  let h := (h.storeAx 0).storeRdi 2 (bytesOf 2 kernelCode)
  let h := (h.storeRdi 4 [0]).storeRdi 5 [0x80 ||| 0x0E]
  let h := (h.movRaxRsi.shrRax 16).andRax 0xFFFF
  let h := h.storeAx 6
  let h := h.movRaxRsi.shrRax 32
  let h := (h.storeEax 8).storeRdi 12 (bytesOf 4 (0 : BitVec 32))
  some h.popRax.popRdi

/-- `_irqs_exceptions` -/
def irqsExceptions (lay : Layout) (fuel : ℕ) (h : Hart) : Option Hart := do
  let h := (h.push h.rdi).push h.rsi
  let h := (h.movRdi 0x21).movRsi lay.isrKeyboard
  let h ← h.call (lay.behind 0) (idtSetGate lay)
  let h ← h.call (lay.behind 1) (lapicEnable lay)
  let h ← h.call (lay.behind 2) (lapicTimer lay fuel)
  let h ← ((h.movRdi 1).movRsi 0x21).call (lay.behind 5) ioapicRedirectIrq
  let h := h.lidt ⟨256 * 16 - 1, lay.idt64⟩
  some h.popRsi.popRdi

/-! ### What each routine leaves -/

/-- What the I/O APIC is when entry `n` has been written. -/
def Ioapic.redirected (io : Ioapic) (i v : BitVec 32) : Ioapic :=
  (((io.select i).window v).select (i + 1)).window 0

lemma low32 (v : BitVec 32) : (v.setWidth 64).setWidth 32 = v := by
  rw [BitVec.setWidth_setWidth_of_le _ (by decide), BitVec.setWidth_eq]

lemma ioapicRedirectIrq_eq (h : Hart) : ioapicRedirectIrq h =
    some { h with ioapic := h.ioapic.redirected (0x10#32 + (h.rdi <<< 1).setWidth 32)
                    (h.rsi.setWidth 32) } := by
  simp only [ioapicRedirectIrq, Hart.push, Machine.push, Hart.movEax, Hart.movEcx, Hart.eax,
    Hart.storeSelect, Hart.storeWindow, Hart.popRdi, Hart.popRcx, Hart.popRbx, Hart.popRax,
    Hart.drop, Machine.drop, Machine.popRcx, Machine.popRbx, Machine.popRax, Machine.top,
    List.headD_cons, List.tail_cons, BitVec.sub_add_cancel, low32, Ioapic.redirected]
  rfl

section Writes

/-- Bytes have been written to ports. -/
def wrote (h : Hart) (rax : BitVec 64) (log : List Io) (pics : Pics) : Hart :=
  { h with rax := rax, log := log, pics := pics }

lemma wrote_movAl (h : Hart) (r : BitVec 64) (l : List Io) (p : Pics) (v : BitVec 8) :
    (wrote h r l p).movAl v = wrote h (setLow8 r v) l p := rfl

lemma wrote_outAl (h : Hart) (r : BitVec 64) (l : List Io) (p : Pics) (port : BitVec 16) :
    (wrote h r l p).outAl port =
      wrote h r (l ++ [.out port (r.setWidth 8)]) (p.out port (r.setWidth 8)) := rfl

/-- Both masked, with vectors of their own. -/
def picsDisabled : Pics where
  master := ⟨.ready, false, true, 0xF0, 4, 1, 0xFF⟩
  slave := ⟨.ready, false, true, 0xF8, 2, 1, 0xFF⟩

lemma setLow16_setLow8 (r : BitVec 64) (v : BitVec 8) :
    setLow16 (setLow8 r v) (r.setWidth 16) = r := by
  apply BitVec.eq_of_getLsbD_eq
  intro i hi
  simp only [setLow8, setLow16, BitVec.getLsbD_append, BitVec.getLsbD_extractLsb',
    BitVec.getLsbD_setWidth]
  by_cases h16 : i < 16
  · simp [h16]
  · have h8 : ¬ 16 + (i - 16) < 8 := by omega
    have h48 : i - 16 < 48 := by omega
    have h56 : 16 + (i - 16) - 8 < 56 := by omega
    have hsum : 8 + (16 + (i - 16) - 8) = i := by omega
    simp [h16, h8, h48, h56, hsum]

/-- The sequence of the writes, whatever the two have been waiting for. -/
lemma picsDisabled_eq (p : Pics) : ((((((((((((((p.out 0x21 0xFF).out 0xA1 0xFF).out 0x20 0x11).out
    0xA0 0x11).out 0x21 0xF0).out 0xA1 0xF8).out 0x21 4).out 0xA1 2).out 0x21 1).out 0xA1 1).out
    0x21 0xFF).out 0xA1 0xFF))) = picsDisabled := rfl

lemma picDisable_eq (h : Hart) : ∃ io, picDisable h =
    some { h with pics := picsDisabled, log := h.log ++ io } := by
  have hstart : h.pushAx = wrote h.pushAx h.rax h.log h.pics := rfl
  have hsp : h.rsp - 2 + 2 = h.rsp := BitVec.sub_add_cancel _ _
  have htop : ((h.rax.setWidth 16).setWidth 64).setWidth 16 = h.rax.setWidth 16 := by
    rw [BitVec.setWidth_setWidth_of_le _ (by decide), BitVec.setWidth_eq]
  rw [picDisable, hstart]
  simp only [wrote_movAl, wrote_outAl, low8_setLow8, setLow8_setLow8, picsDisabled_eq]
  simp only [wrote, Hart.popAx, Hart.pushAx, Machine.top, List.headD_cons, List.tail_cons,
    List.append_assoc, hsp, htop, setLow16_setLow8]
  exact ⟨_, rfl⟩

end Writes

/-- A callee that leaves the stack as it was is returned from. -/
lemma Hart.call_eq {h t : Hart} {ra : BitVec 64} {f : Hart → Option Hart}
    (hf : f (h.push ra) = some t) (hstack : t.stack = ra :: h.stack) :
    h.call ra f = some { t with stack := h.stack, rsp := t.rsp + 8 } := by
  have hhead : t.stack.head? = some ra := by
    rw [hstack, List.head?_cons]
  rw [Hart.call, callOn_of_head hf hhead, Hart.drop, Machine.drop, hstack, List.tail_cons]

/-- The two halves of a register that is read, with a bit set and written back. -/
lemma halves_or (v : BitVec 64) :
    let r := (v.setWidth 32).setWidth 64 ||| ((v.extractLsb' 32 32).setWidth 64) <<< 32 |||
      1#64 <<< 11
    ((r >>> 32).setWidth 32 ++ r.setWidth 32 : BitVec 64) = v ||| 1#64 <<< 11 := by
  intro r
  have hr : r = v ||| 1#64 <<< 11 := by
    apply BitVec.eq_of_getLsbD_eq
    intro i hi
    simp only [r, BitVec.getLsbD_or, BitVec.getLsbD_setWidth, BitVec.getLsbD_shiftLeft,
      BitVec.getLsbD_extractLsb']
    by_cases hlow : i < 32
    · simp [hlow, hi]
    · have hlt : i - 32 < 32 := by omega
      have hlt' : i - 32 < 64 := by omega
      have hsum : 32 + (i - 32) = i := by omega
      simp [hlow, hi, hlt, hlt', hsum]
  rw [hr]
  apply BitVec.eq_of_getLsbD_eq
  intro i hi
  simp only [BitVec.getLsbD_append, BitVec.getLsbD_setWidth, BitVec.getLsbD_ushiftRight]
  by_cases hlow : i < 32
  · simp [hlow]
  · have hlt : i - 32 < 32 := by omega
    have hsum : 32 + (i - 32) = i := by omega
    simp [hlow, hlt, hsum]

lemma lapicEnable_eq (lay : Layout) (h : Hart) : ∃ io, lapicEnable lay h =
    some { h with pics := picsDisabled, log := h.log ++ io,
                  msr := Function.update h.msr 0x1B (h.msr 0x1B ||| 1#64 <<< 11)
                  lapic := h.lapic.write SVR_REG (h.lapic.read SVR_REG ||| 0x100) } := by
  let k := ((h.push h.rax).push h.rcx).push h.rdx
  obtain ⟨io, hio⟩ := picDisable_eq (k.push (lay.behind 3))
  have hcall : k.call (lay.behind 3) picDisable =
      some { k with pics := picsDisabled, log := h.log ++ io } := by
    rw [Hart.call_eq hio rfl]
    simp only [k, Hart.push, Machine.push, BitVec.sub_add_cancel]
  refine ⟨io, ?_⟩
  rw [lapicEnable, hcall]
  simp only [Option.bind_eq_bind, Option.bind_some, Hart.movEcx, Hart.rdmsr, Hart.wrmsr,
    Hart.movEax, Hart.eax, Hart.storeLapic, Hart.popRdx, Hart.popRcx, Hart.popRax, Machine.drop,
    Machine.popRdx, Machine.popRcx, Machine.popRax, Machine.top, List.headD_cons,
    List.tail_cons, BitVec.sub_add_cancel, low32, k, Hart.push, Machine.push]
  rw [halves_or]

section Pit

/-- The two bytes of a reading: the second is in `al`, and the first, which was there before, has
been shifted out of it. -/
lemma reading_eq (r : BitVec 64) (lo hi : BitVec 8) :
    (setLow8 (setLow16 (setLow8 r lo) ((setLow8 r lo).setWidth 16 <<< 8)) hi).setWidth 16 =
      lo ++ hi := by
  apply BitVec.eq_of_getLsbD_eq
  intro i hi
  simp only [setLow8, setLow16, BitVec.getLsbD_setWidth, BitVec.getLsbD_append,
    BitVec.getLsbD_extractLsb', BitVec.getLsbD_shiftLeft, hi, decide_true, Bool.true_and]
  by_cases h8 : i < 8
  · simp [h8]
  · have hlt : i - 8 < 8 := by omega
    have hlt' : i - 8 < 56 := by omega
    have hlt'' : i - 8 < 16 := by omega
    have hsum : 8 + (i - 8) = i := by omega
    simp [h8, hlt, hlt', hsum, hi, hlt'']

lemma append_eq_zero_iff (lo hi : BitVec 8) : lo ++ hi = (0 : BitVec 16) ↔ lo = 0 ∧ hi = 0 := by
  constructor
  · intro h
    have hbits := fun i => congrArg (BitVec.getLsbD · i) h
    simp only [BitVec.getLsbD_append] at hbits
    constructor
    · apply BitVec.eq_of_getLsbD_eq
      intro i hi
      have hbit := hbits (8 + i)
      simpa using hbit
    · apply BitVec.eq_of_getLsbD_eq
      intro i hi
      have hbit := hbits i
      simpa [hi] using hbit
  · rintro ⟨rfl, rfl⟩
    rfl

/-- Reading `k` of the counter is zero. -/
def PitZero (ws : Stream' (BitVec 16)) (k : ℕ) : Prop :=
  (ws.get (2 * k)).setWidth 8 = (0 : BitVec 8) ∧ (ws.get (2 * k + 1)).setWidth 8 = (0 : BitVec 8)

/-- What one pass of the loop leaves. -/
lemma pitRead_eq (h : Hart) : ∃ r, pitRead h =
      { h with rax := r, log := h.log ++ [.out 0x43 0],
               inp := Function.update h.inp 0x40 (h.inp 0x40).tail.tail } ∧
    (r.setWidth 16 = (0 : BitVec 16) ↔ PitZero (h.inp 0x40) 0) := by
  refine ⟨setLow8 (setLow16 (setLow8 (setLow8 h.rax 0) ((h.inp 0x40).head.setWidth 8))
    ((setLow8 (setLow8 h.rax 0) ((h.inp 0x40).head.setWidth 8)).setWidth 16 <<< 8))
    ((h.inp 0x40).tail.head.setWidth 8), ?_, ?_⟩
  · have hpics : h.pics.out 0x43 0 = h.pics := rfl
    simp only [pitRead, Hart.movAl, Hart.outAl, Hart.inAl, Hart.movAx, Hart.ax, Machine.eat,
      Machine.setAl, Machine.al, low8_setLow8, hpics, Function.update_self, Function.update_idem]
  · rw [reading_eq, append_eq_zero_iff]
    rfl

lemma pitZero_succ {ws : Stream' (BitVec 16)} {k : ℕ} :
    PitZero ws (k + 1) ↔ PitZero ws.tail.tail k := by
  rw [PitZero, Nat.mul_succ]
  rfl

lemma pitWaitLoop_eq {fuel k : ℕ} {h : Hart} (hk : k < fuel) (hzero : PitZero (h.inp 0x40) k) :
    ∃ r ws io, pitWaitLoop fuel h =
      some { h with rax := r, log := h.log ++ io, inp := Function.update h.inp 0x40 ws } := by
  induction k generalizing fuel h with
  | zero =>
    obtain ⟨fuel, rfl⟩ : ∃ n, fuel = n + 1 := ⟨fuel - 1, by omega⟩
    obtain ⟨r, hr, hr0⟩ := pitRead_eq h
    refine ⟨r, (h.inp 0x40).tail.tail, [.out 0x43 0], ?_⟩
    rw [pitWaitLoop, hr, Hart.ax, if_neg (not_not.mpr (hr0.mpr hzero))]
  | succ k ih =>
    obtain ⟨fuel, rfl⟩ : ∃ n, fuel = n + 1 := ⟨fuel - 1, by omega⟩
    obtain ⟨r, hr, hr0⟩ := pitRead_eq h
    rw [pitWaitLoop, hr]
    by_cases hnow : r.setWidth 16 = (0 : BitVec 16)
    · refine ⟨r, (h.inp 0x40).tail.tail, [.out 0x43 0], ?_⟩
      rw [Hart.ax, if_neg (not_not.mpr hnow)]
    · let t : Hart := { h with rax := r, log := h.log ++ [.out 0x43 0],
                               inp := Function.update h.inp 0x40 (h.inp 0x40).tail.tail }
      have hzero' : PitZero (t.inp 0x40) k := by
        simp only [t, Function.update_self]
        exact pitZero_succ.mp hzero
      obtain ⟨r', ws, io, ht⟩ := ih (h := t) (Nat.lt_of_succ_lt_succ hk) hzero'
      refine ⟨r', ws, .out 0x43 0 :: io, ?_⟩
      rw [Hart.ax, if_pos hnow, ht]
      simp only [t, Function.update_idem, List.append_assoc, List.cons_append, List.nil_append]

lemma pitWait10ms_eq {fuel k : ℕ} {h : Hart} (hk : k < fuel) (hzero : PitZero (h.inp 0x40) k) :
    ∃ ws io, pitWait10ms fuel h =
      some { h with log := h.log ++ io, inp := Function.update h.inp 0x40 ws } := by
  obtain ⟨r₀, io₀, hstart⟩ : ∃ r io, pitWait10ms fuel h =
      (pitWaitLoop fuel { h.push h.rax with rax := r, log := h.log ++ io }).bind
        fun t => some t.popRax := by
    have hpics : ∀ v, (h.pics.out 0x43 v).out 0x40 = h.pics.out 0x40 := fun _ => rfl
    have hpics' : ∀ v, h.pics.out 0x40 v = h.pics := fun _ => rfl
    simp only [pitWait10ms, Hart.movAl, Hart.outAl, Hart.movAx, Hart.ax, Machine.al, Hart.push,
      Machine.push, hpics, hpics', List.append_assoc]
    exact ⟨_, _, rfl⟩
  obtain ⟨r, ws, io, hloop⟩ := pitWaitLoop_eq
    (h := { h.push h.rax with rax := r₀, log := h.log ++ io₀ }) hk hzero
  refine ⟨ws, io₀ ++ io, ?_⟩
  rw [hstart, hloop, Option.bind_some]
  simp only [Hart.popRax, Hart.push, Machine.push, Machine.popRax, Machine.drop, Machine.top,
    List.headD_cons, List.tail_cons, BitVec.sub_add_cancel, List.append_assoc]

end Pit

section Timer

/-- The timer counts down from its highest value again and again, and requests nothing. -/
def timerOn (l : Lapic) : Lapic :=
  ((l.write DFR_REG 0x03).write LVT_TIMER_REG (1#32 <<< 16 ||| 1#32 <<< 17)).write TMICT_REG
    0xFFFFFFFF

/-- A hundred times what the timer has counted in the wait. -/
def frequency (count : BitVec 32) : BitVec 64 := (0xFFFFFFFF - count.setWidth 64) * 100

/-- The variables of the timer. -/
def timerVars (count : BitVec 32) : List (BitVec 8) :=
  bytesOf 8 (frequency count) ++ bytesOf 4 (0x03 : BitVec 32)

lemma stored_vars (lay : Layout) (m : BitVec 64 → BitVec 8) {bs cs : List (BitVec 8)}
    (hbs : bs.length = 8) (hcs : cs.length = 4) :
    stored (stored m lay.lapicTimerFreqHz bs) lay.lapicTimerDivider cs =
      stored m lay.lapicTimerFreqHz (bs ++ cs) := by
  rw [← stored_stored (by omega), hbs]
  rfl

lemma timerStart_eq (lay : Layout) (h : Hart) : ∃ bs, bs.length = 12 ∧ timerStart lay h =
    { h with rax := 0, mem := stored h.mem lay.lapicTimerFreqHz bs, lapic := timerOn h.lapic } := by
  refine ⟨bytesOf 8 (0 : BitVec 64) ++ bytesOf 4 ((0 : BitVec 64).setWidth 32), by simp, ?_⟩
  rw [← stored_vars lay _ (length_bytesOf _ _) (length_bytesOf _ _)]
  rfl

/-- The state with other values in four of the registers. -/
def setRegs (h : Hart) (a b c d : BitVec 64) : Hart :=
  { h with rax := a, rbx := b, rcx := c, rdx := d }

section Regs

variable (h : Hart) (a b c d v : BitVec 64)

lemma setRegs_movRbx : (setRegs h a b c d).movRbx v = setRegs h a v c d := rfl

lemma setRegs_subRbxRax : (setRegs h a b c d).subRbxRax = setRegs h a (b - a) c d := rfl

lemma setRegs_movRaxRbx : (setRegs h a b c d).movRaxRbx = setRegs h b b c d := rfl

lemma setRegs_movRcx : (setRegs h a b c d).movRcx v = setRegs h a b v d := rfl

lemma setRegs_mulRcx : ∃ e, (setRegs h a b c d).mulRcx = setRegs h (a * c) b c e := by
  refine ⟨(a.setWidth 128 * c.setWidth 128).extractLsb' 64 64, ?_⟩
  have hlow : (a.setWidth 128 * c.setWidth 128).setWidth 64 = a * c := by
    rw [BitVec.setWidth_mul _ _ (by decide), BitVec.setWidth_setWidth_of_le _ (by decide),
      BitVec.setWidth_setWidth_of_le _ (by decide), BitVec.setWidth_eq, BitVec.setWidth_eq]
  rw [← hlow]
  rfl

lemma setRegs_rax : (setRegs h a b c d).rax = a := rfl

lemma setRegs_stores (x y : BitVec 64) (bs cs : List (BitVec 8)) :
    ((setRegs h a b c d).store x bs).store y cs =
      setRegs { h with mem := stored (stored h.mem x bs) y cs } a b c d := rfl

end Regs

lemma timerMeasure_eq (lay : Layout) (h : Hart) : ∃ a b c d, timerMeasure lay h =
    setRegs { h with mem := stored h.mem lay.lapicTimerFreqHz (timerVars h.lapic.count) }
      a b c d := by
  have hstart : h.movEax (h.lapic.read TMCCT_REG) =
      setRegs h (h.lapic.count.setWidth 64) h.rbx h.rcx h.rdx := rfl
  obtain ⟨e, he⟩ := setRegs_mulRcx h (0xFFFFFFFF - h.lapic.count.setWidth 64)
    (0xFFFFFFFF - h.lapic.count.setWidth 64) 100 h.rdx
  refine ⟨frequency h.lapic.count, 0xFFFFFFFF - h.lapic.count.setWidth 64, 100, e, ?_⟩
  rw [timerVars, ← stored_vars lay _ (length_bytesOf _ _) (length_bytesOf _ _), timerMeasure,
    hstart, setRegs_movRbx, setRegs_subRbxRax, setRegs_movRaxRbx, setRegs_movRcx, he, ← frequency,
    setRegs_rax, setRegs_stores]

lemma lapicTimer_eq (lay : Layout) {fuel k : ℕ} {h : Hart} (hk : k < fuel)
    (hzero : PitZero (h.inp 0x40) k) : ∃ ws io, lapicTimer lay fuel h =
      some { h with mem := stored h.mem lay.lapicTimerFreqHz (timerVars h.lapic.count)
                    lapic := timerOn h.lapic
                    log := h.log ++ io
                    inp := Function.update h.inp 0x40 ws } := by
  let k₁ := (((h.push h.rax).push h.rbx).push h.rcx).push h.rdx
  obtain ⟨bs, hbs, hstart⟩ := timerStart_eq lay k₁
  let k₂ : Hart := { k₁ with
    rax := 0, mem := stored h.mem lay.lapicTimerFreqHz bs, lapic := timerOn h.lapic }
  obtain ⟨ws, io, hio⟩ := pitWait10ms_eq (h := k₂.push (lay.behind 4)) hk hzero
  have hcall : (timerStart lay k₁).call (lay.behind 4) (pitWait10ms fuel) =
      some { k₂ with log := h.log ++ io, inp := Function.update h.inp 0x40 ws } := by
    rw [show timerStart lay k₁ = k₂ from hstart, Hart.call_eq hio rfl]
    simp only [k₁, k₂, Hart.push, Machine.push, BitVec.sub_add_cancel]
  obtain ⟨rax, rbx, rcx, rdx, hmeasure⟩ := timerMeasure_eq lay
    { k₂ with log := h.log ++ io, inp := Function.update h.inp 0x40 ws }
  refine ⟨ws, io, ?_⟩
  have hlen : bs.length = (timerVars (timerOn h.lapic).count).length := by
    rw [hbs]
    rfl
  rw [lapicTimer, hcall, Option.bind_eq_bind, Option.bind_some, hmeasure]
  simp only [k₁, k₂, setRegs, Hart.push, Machine.push, Hart.popRdx, Hart.popRcx, Hart.popRbx,
    Hart.popRax, Machine.popRdx, Machine.popRcx, Machine.popRbx, Machine.popRax, Machine.drop,
    Machine.top, List.headD_cons, List.tail_cons, BitVec.sub_add_cancel, stored_twice hlen]
  rfl

end Timer

section Gates

/-- The state with other values in two of the registers, and another memory. -/
def setMem (h : Hart) (a d : BitVec 64) (m : BitVec 64 → BitVec 8) : Hart :=
  { h with rax := a, rdi := d, mem := m }

section Mem

variable (h : Hart) (a d v : BitVec 64) (m : BitVec 64 → BitVec 8)

lemma setMem_imulRdi : (setMem h a d m).imulRdi v = setMem h a (d * v) m := rfl

lemma setMem_addRdi : (setMem h a d m).addRdi v = setMem h a (d + v) m := rfl

lemma setMem_movRaxRsi : (setMem h a d m).movRaxRsi = setMem h h.rsi d m := rfl

lemma setMem_andRax : (setMem h a d m).andRax v = setMem h (a &&& v) d m := rfl

lemma setMem_shrRax (n : ℕ) : (setMem h a d m).shrRax n = setMem h (a >>> n) d m := rfl

lemma setMem_storeRdi (x : BitVec 64) (bs : List (BitVec 8)) :
    (setMem h a d m).storeRdi x bs = setMem h a d (stored m (d + x) bs) := rfl

lemma setMem_storeAx (x : BitVec 64) :
    (setMem h a d m).storeAx x = setMem h a d (stored m (d + x) (bytesOf 2 (a.setWidth 16))) := rfl

lemma setMem_storeEax (x : BitVec 64) :
    (setMem h a d m).storeEax x = setMem h a d (stored m (d + x) (bytesOf 4 (a.setWidth 32))) := rfl

lemma setMem_pop (b c : BitVec 64) : (setMem ((h.push b).push c) a d m).popRax.popRdi =
    setMem h c b m := by
  simp only [setMem, Hart.push, Machine.push, Hart.popRax, Machine.popRax, Hart.popRdi, Hart.drop,
    Machine.drop, Machine.top, List.headD_cons, List.tail_cons, BitVec.sub_add_cancel]

end Mem

/-- The bytes of the gate for a handler. -/
def gateBytes (offset : BitVec 64) : List (BitVec 8) :=
  bytesOf 2 ((offset &&& 0xFFFF).setWidth 16) ++ bytesOf 2 kernelCode ++ [0, interruptGate] ++
    bytesOf 2 ((offset >>> 16 &&& 0xFFFF).setWidth 16) ++ bytesOf 4 ((offset >>> 32).setWidth 32) ++
    bytesOf 4 (0 : BitVec 32)

lemma idtSetGate_eq (lay : Layout) (h : Hart) : idtSetGate lay h =
    some { h with mem := stored h.mem (h.rdi * 16 + lay.idt64) (gateBytes h.rsi) } := by
  have hstart : (h.push h.rdi).push h.rax =
      setMem ((h.push h.rdi).push h.rax) h.rax h.rdi h.mem := rfl
  have hrsi : ((h.push h.rdi).push h.rax).rsi = h.rsi := rfl
  have hzero : h.rdi * 16 + lay.idt64 + 0 = h.rdi * 16 + lay.idt64 := BitVec.add_zero _
  rw [idtSetGate, hstart, setMem_imulRdi, setMem_addRdi, setMem_movRaxRsi, setMem_andRax,
    setMem_storeAx, setMem_storeRdi, setMem_storeRdi, setMem_storeRdi, setMem_movRaxRsi,
    setMem_shrRax, setMem_andRax, setMem_storeAx, setMem_movRaxRsi, setMem_shrRax, setMem_storeEax,
    setMem_storeRdi, setMem_pop, hrsi, hzero, stored_next, stored_next, stored_next,
    stored_next, stored_next, stored_next]
  · rfl
  all_goals simp

end Gates

end EvtDrivenOs.Irq
