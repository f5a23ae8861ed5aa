/-
The part of the MicroBlaze instruction set that small assembly routines use, as functions on a
machine state.

Register 0 reads as 0, whatever is written to it.  The memory consists of words, and a load or
a store does not look at the low two bits of its address.  The cache instructions are logged.
A routine gives the state after the instruction in the delay slot of its return, with the
address at which the execution goes on in `pc`.  A C function that a routine calls is a function
on states too, and `Conforming` is what the calling convention says about it.
-/
import Mathlib.Data.BitVec
import Mathlib.Logic.Function.Basic

namespace EvtDrivenOs.Lib.MicroBlaze

/-- 32 bits. -/
abbrev Word := BitVec 32

/-- The number of a general register. -/
abbrev Reg := Fin 32

/-- There is a register, so that numerals name registers. -/
scoped instance instNeZeroReg : NeZero 32 := ⟨by decide⟩

/-- The special registers with the exception address, the exception status and the branch
target. -/
inductive Spr
  | rear
  | resr
  | rbtr
deriving DecidableEq, Repr

/-- The cache instructions, by what follows the `wdc`. -/
inductive Wdc
  | line
  | extClear
  | extFlush
deriving DecidableEq, Repr

/-- The registers, the memory and what has been done to the data cache. -/
structure Machine where
  gpr : Reg → Word
  spr : Spr → Word
  /-- The words in memory, by the upper 30 bits of their address. -/
  mem : ℕ → Word
  pc : Word
  /-- The cache instructions with their addresses, the latest one last. -/
  log : List (Wdc × Word)

namespace Machine

variable (m : Machine)

/-! ### Registers -/

/-- What an instruction reads from the register: `r0` is zero. -/
def reg (r : Reg) : Word := if r = 0 then 0 else m.gpr r

/-- The register gets a new value. -/
def setReg (d : Reg) (v : Word) : Machine := { m with gpr := Function.update m.gpr d v }

@[simp] lemma reg_zero : m.reg 0 = 0 := rfl

lemma reg_setReg_self {d : Reg} (hd : d ≠ 0) (v : Word) : (m.setReg d v).reg d = v := by
  rw [reg, if_neg hd, setReg]
  exact Function.update_self ..

lemma reg_setReg_of_ne {d r : Reg} (h : r ≠ d) (v : Word) : (m.setReg d v).reg r = m.reg r := by
  rw [reg, reg, setReg]
  exact congrArg _ (Function.update_of_ne h ..)

lemma reg_setReg (d r : Reg) (v : Word) :
    (m.setReg d v).reg r = if r = d ∧ d ≠ 0 then v else m.reg r := by
  by_cases h : r = d ∧ d ≠ 0
  · obtain ⟨rfl, hd⟩ := h
    rw [if_pos ⟨rfl, hd⟩, reg_setReg_self _ hd]
  · rw [if_neg h]
    rcases eq_or_ne r d with rfl | hne
    · obtain rfl : r = 0 := not_not.1 fun hr => h ⟨rfl, hr⟩
      rfl
    · exact reg_setReg_of_ne _ hne v

@[simp] lemma setReg_log (d : Reg) (v : Word) : (m.setReg d v).log = m.log := rfl

/-! ### Instructions -/

/-- `add rd, ra, rb` -/
def add (d a b : Reg) : Machine := m.setReg d (m.reg a + m.reg b)

/-- `addik rd, ra, imm` -/
def addik (d a : Reg) (imm : Word) : Machine := m.setReg d (m.reg a + imm)

/-- `andi rd, ra, imm` -/
def andi (d a : Reg) (imm : Word) : Machine := m.setReg d (m.reg a &&& imm)

/-- `rsubk`, which subtracts its first operand from its second one. -/
def rsubk (d a b : Reg) : Machine := m.setReg d (m.reg b - m.reg a)

/-- `cmpu`: the same difference, but its sign is that of the comparison as unsigned numbers. -/
def cmpu (d a b : Reg) : Machine :=
  m.setReg d (BitVec.cons (m.reg a > m.reg b) ((m.reg b - m.reg a).setWidth 31))

/-- `mfs rd, rs`: the special register is read. -/
def mfs (d : Reg) (s : Spr) : Machine := m.setReg d (m.spr s)

/-- The word that a load from the address finds. -/
def word (ea : Word) : Word := m.mem (ea.toNat / 4)

@[simp] lemma setReg_word (d : Reg) (v : Word) : (m.setReg d v).word = m.word := rfl

/-- `swi rd, ra, imm`: the word goes to memory. -/
def swi (d a : Reg) (imm : Word) : Machine :=
  { m with mem := Function.update m.mem ((m.reg a + imm).toNat / 4) (m.reg d) }

/-- `lwi rd, ra, imm`: the word comes from memory. -/
def lwi (d a : Reg) (imm : Word) : Machine := m.setReg d (m.word (m.reg a + imm))

/-- `wdc ra, rb`: the line of the data cache at the address. -/
def wdc (op : Wdc) (a b : Reg) : Machine :=
  { m with log := m.log ++ [(op, m.reg a + m.reg b)] }

/-- What `brlid` at the address `link` does to the register `d` before the jump. -/
def brlid (d : Reg) (link : Word) : Machine := m.setReg d link

/-- `rtsd ra, imm`: the return from a subroutine. -/
def rtsd (a : Reg) (imm : Word) : Machine := { m with pc := m.reg a + imm }

/-- `rted ra, imm`: the return from an exception. -/
def rted (a : Reg) (imm : Word) : Machine := { m with pc := m.reg a + imm }

@[simp] lemma swi_reg (d a : Reg) (imm : Word) : (m.swi d a imm).reg = m.reg := rfl

lemma word_swi (d a : Reg) (imm ea : Word) : (m.swi d a imm).word ea =
    if ea.toNat / 4 = (m.reg a + imm).toNat / 4 then m.reg d else m.word ea :=
  Function.update_apply ..

@[simp] lemma wdc_reg (op : Wdc) (a b : Reg) : (m.wdc op a b).reg = m.reg := rfl

@[simp] lemma wdc_log (op : Wdc) (a b : Reg) :
    (m.wdc op a b).log = m.log ++ [(op, m.reg a + m.reg b)] := rfl

@[simp] lemma rted_reg (a : Reg) (imm : Word) : (m.rted a imm).reg = m.reg := rfl

/-- What a conditional branch sees after a `cmpu`. -/
lemma msb_reg_cmpu {d : Reg} (hd : d ≠ 0) (a b : Reg) :
    ((m.cmpu d a b).reg d).msb = decide (m.reg a > m.reg b) := by
  rw [cmpu, reg_setReg_self _ hd, BitVec.msb_cons]

end Machine

/-! ### The calling convention -/

/-- The registers that a function leaves as they are. -/
def preserved : List Reg :=
  [1, 2, 13, 14, 16, 17, 19, 20, 21, 22, 23, 24, 25, 26, 27, 28, 29, 30, 31]

/-- The registers that it may change: results, arguments, temporaries and the link. -/
def volatile : List Reg := [3, 4, 5, 6, 7, 8, 9, 10, 11, 12, 15, 18]

/-- The function keeps the registers that belong to its caller. -/
def Conforming (f : Machine → Machine) : Prop := ∀ m, ∀ r ∈ preserved, (f m).reg r = m.reg r

lemma reg_cases (r : Reg) : r = 0 ∨ r ∈ preserved ∨ r ∈ volatile := by
  revert r
  decide

end EvtDrivenOs.Lib.MicroBlaze
