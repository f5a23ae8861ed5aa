/-
The interrupt controllers of a PC: the two 8259 of old, the I/O APIC and the local APIC of the
processor, and the table of gates in memory.

Each is a state with what a write to one of its registers does.  `Hart.deliver` puts them
together: where an interrupt request goes.
-/
import EvtDrivenOs.Lib.X64Mem

namespace EvtDrivenOs.Irq

open EvtDrivenOs.Lib.X64

/-! ### The 8259 -/

/-- The word that a write to the data port is taken for. -/
inductive Stage
  | ready
  | icw2
  | icw3
  | icw4
deriving DecidableEq, Repr

/-- One 8259: how far its initialization is, and what it has been told. -/
structure Pic where
  stage : Stage
  single : Bool
  needIcw4 : Bool
  offset : BitVec 8
  cascade : BitVec 8
  mode : BitVec 8
  /-- The requests that are masked. -/
  imr : BitVec 8
deriving DecidableEq

/-- A write to the command port.  The first word of an initialization is told by its bit 4; the
other commands do not matter here. -/
def Pic.command (p : Pic) (v : BitVec 8) : Pic :=
  if v.getLsbD 4 then
    { p with stage := .icw2, single := v.getLsbD 1, needIcw4 := v.getLsbD 0, mode := 0, imr := 0 }
  else p

/-- A write to the data port. -/
def Pic.data (p : Pic) (v : BitVec 8) : Pic :=
  let last : Stage := if p.needIcw4 then .icw4 else .ready
  match p.stage with
  | .ready => { p with imr := v }
  | .icw2 => { p with offset := v, stage := if p.single then last else .icw3 }
  | .icw3 => { p with cascade := v, stage := last }
  | .icw4 => { p with mode := v, stage := .ready }

/-- Whether the requests of line `k` get to the processor. -/
def Pic.passes (p : Pic) (k : ℕ) : Bool := p.stage = .ready && !p.imr.getLsbD k

/-- The two 8259. -/
structure Pics where
  master : Pic
  slave : Pic
deriving DecidableEq

/-- A byte written to a port. -/
def Pics.out (ps : Pics) (port : BitVec 16) (v : BitVec 8) : Pics :=
  if port = 0x20 then { ps with master := ps.master.command v }
  else if port = 0x21 then { ps with master := ps.master.data v }
  else if port = 0xA0 then { ps with slave := ps.slave.command v }
  else if port = 0xA1 then { ps with slave := ps.slave.data v }
  else ps

/-- Whether one of the sixteen requests gets to the processor: those of the second 8259 go
through line 2 of the first. -/
def Pics.passes (ps : Pics) (k : ℕ) : Bool :=
  if k < 8 then ps.master.passes k else ps.slave.passes (k - 8) && ps.master.passes 2

/-! ### The I/O APIC -/

/-- The I/O APIC. -/
structure Ioapic where
  /-- The register that the window shows. -/
  sel : BitVec 8
  /-- What is done with the request of each line. -/
  entry : ℕ → BitVec 64

/-- The bits of an entry that a write does not change. -/
def readOnly : BitVec 32 := 0x5000

/-- A store to the register select: only the lowest byte counts. -/
def Ioapic.select (io : Ioapic) (v : BitVec 32) : Ioapic := { io with sel := v.setWidth 8 }

/-- A write to the window.  From register `0x10` on there are two for each entry, the lower half
first; those below have nothing to do with the entries. -/
def Ioapic.window (io : Ioapic) (v : BitVec 32) : Ioapic :=
  let r := io.sel.toNat
  if r < 0x10 then io
  else
    let n := (r - 0x10) / 2
    let e := io.entry n
    let e :=
      if r % 2 = 0 then e.extractLsb' 32 32 ++ (v &&& ~~~readOnly ||| e.setWidth 32 &&& readOnly)
      else v ++ e.setWidth 32
    { io with entry := Function.update io.entry n e }

/-- An entry: the vector, how it is delivered (0 to the processor it names, as it is), whether
the processor is named by its logical number, the mask, and the processor. -/
def vectorOf (e : BitVec 64) : BitVec 8 := e.extractLsb' 0 8

/-- How the interrupt is delivered. -/
def deliveryOf (e : BitVec 64) : BitVec 3 := e.extractLsb' 8 3

/-- The destination is a set of processors and not the number of one. -/
def logical (e : BitVec 64) : Bool := e.getLsbD 11

/-- The line is turned off. -/
def masked (e : BitVec 64) : Bool := e.getLsbD 16

/-- The processor that gets the interrupt. -/
def destination (e : BitVec 64) : BitVec 8 := e.extractLsb' 56 8

/-! ### The local APIC -/

/-- The local APIC of the processor. -/
structure Lapic where
  id : BitVec 8
  /-- The registers by their offsets. -/
  reg : ℕ → BitVec 32
  /-- How often the end of an interrupt has been signalled. -/
  eois : ℕ
  /-- What the timer will have counted down to when it is read. -/
  count : BitVec 32

/-- The register for the end of an interrupt. -/
def EOI_REG : ℕ := 0xB0

/-- The register with the spurious vector and the enable bit. -/
def SVR_REG : ℕ := 0xF0

/-- The register with the vector and the mode of the timer. -/
def LVT_TIMER_REG : ℕ := 0x320

/-- The register with the count the timer starts with. -/
def TMICT_REG : ℕ := 0x380

/-- The register with the count the timer is at. -/
def TMCCT_REG : ℕ := 0x390

/-- The register for the format of logical destinations. -/
def DFR_REG : ℕ := 0x3E0

/-- A write to a register. -/
def Lapic.write (l : Lapic) (r : ℕ) (v : BitVec 32) : Lapic :=
  if r = EOI_REG then { l with eois := l.eois + 1 }
  else { l with reg := Function.update l.reg r v }

/-- A load from a register: the count of the timer goes on by itself. -/
def Lapic.read (l : Lapic) (r : ℕ) : BitVec 32 := if r = TMCCT_REG then l.count else l.reg r

/-! ### The processor -/

/-- The limit and the address of the table of gates. -/
structure Idtr where
  limit : ℕ
  base : BitVec 64

/-- The processor with its interrupt controllers. -/
structure Hart extends Machine where
  r9 : BitVec 64
  r10 : BitVec 64
  r11 : BitVec 64
  pics : Pics
  ioapic : Ioapic
  lapic : Lapic
  msr : BitVec 32 → BitVec 64
  idtr : Idtr

/-- The bytes of a gate. -/
structure Gate where
  selector : BitVec 16
  ist : BitVec 8
  typeAttr : BitVec 8
  offset : BitVec 64
deriving DecidableEq

/-- The gate in the 16 bytes at `a`. -/
def gateAt (m : BitVec 64 → BitVec 8) (a : BitVec 64) : Gate :=
  let b (i : ℕ) : BitVec 8 := m (a + BitVec.ofNat 64 i)
  { selector := b 3 ++ b 2
    ist := b 4
    typeAttr := b 5
    offset := b 11 ++ b 10 ++ b 9 ++ b 8 ++ b 7 ++ b 6 ++ b 1 ++ b 0 }

/-- A gate that is present, for interrupts. -/
def interruptGate : BitVec 8 := 0x8E

/-- The segment of the kernel's code. -/
def kernelCode : BitVec 16 := 0x08

namespace Hart

variable (h : Hart)

/-- The code that runs for a vector; `none` is a fault. -/
def handler (v : ℕ) : Option (BitVec 64) :=
  let g := gateAt h.mem (h.idtr.base + BitVec.ofNat 64 (16 * v))
  if 16 * v + 15 ≤ h.idtr.limit ∧ g.typeAttr = interruptGate ∧ g.selector = kernelCode then
    some g.offset
  else none

/-- The processor's own controller takes requests. -/
def lapicOn : Bool := (h.msr 0x1B).getLsbD 11 && (h.lapic.reg SVR_REG).getLsbD 8

/-- The code that runs for a request at line `k` of the I/O APIC; `none` if the request does not
get to this processor. -/
def deliver (k : ℕ) : Option (BitVec 64) :=
  let e := h.ioapic.entry k
  if masked e || deliveryOf e ≠ 0 || logical e || destination e ≠ h.lapic.id || !h.lapicOn then none
  else h.handler (vectorOf e).toNat

end Hart

end EvtDrivenOs.Irq
