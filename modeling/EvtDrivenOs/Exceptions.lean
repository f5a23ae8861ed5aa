/-
The exception handlers of the MicroBlaze port, in `crt0.S`.

A handler saves `r5`, `r6` and the return address below the stack pointer and calls a C
function with the exception's address and status.  The C function may change a dozen registers,
of which the handler restores only the two that it saved.
-/
import EvtDrivenOs.Lib.MicroBlaze

namespace EvtDrivenOs.Exceptions

open EvtDrivenOs.Lib.MicroBlaze

/-! ### The handlers -/

/-- The return address into `r17`: the target of the branch when the exception came in a delay
slot, and otherwise what the exception itself has put there. -/
def returnAddress (m : Machine) : Machine :=
  let m := (m.mfs 6 .resr).andi 6 6 0x1000
  if m.reg 6 = 0 then m else m.mfs 17 .rbtr

/-- A handler up to the entry of the C function; `link` is the address of the call. -/
def handlerCall (link : Word) (m : Machine) : Machine :=
  let m := m.addik 1 1 (-12)
  let m := m.swi 5 1 0
  let m := m.swi 6 1 4
  let m := returnAddress m
  let m := m.swi 17 1 8
  let m := m.mfs 5 .rear
  let m := m.mfs 6 .resr
  m.brlid 15 link

/-- A handler from the return of the C function on. -/
def handlerReturn (m : Machine) : Machine :=
  let m := m.lwi 17 1 8
  let m := m.lwi 6 1 4
  let m := m.lwi 5 1 0
  let m := m.addik 1 1 12
  m.rted 17 0

/-- `_exception_handler`, which calls `_xsoft_except`. -/
def exceptionHandler (xsoftExcept : Machine → Machine) (link : Word) (m : Machine) : Machine :=
  handlerReturn (xsoftExcept (handlerCall link m))

/-- `_hw_exception_handler`, which calls `_xhard_except`. -/
def hwExceptionHandler (xhardExcept : Machine → Machine) (link : Word) (m : Machine) : Machine :=
  handlerReturn (xhardExcept (handlerCall link m))

/-- The interrupted code finds its registers as they were, except `r17`. -/
def Transparent (handler : Machine → Machine) (m : Machine) : Prop :=
  ∀ r, r ≠ 17 → (handler m).reg r = m.reg r

/-- The C function was called in a handler entered with `m` and returns with `c`: the registers
that nobody saved are those of the interrupted code, and the saved ones are in memory. -/
structure Intact (m c : Machine) : Prop where
  unsaved : ∀ r ∈ volatile, r ≠ 5 → r ≠ 6 → c.reg r = m.reg r
  saved_r5 : c.word (m.reg 1 + -12) = m.reg 5
  saved_r6 : c.word (m.reg 1 + -12 + 4) = m.reg 6

/-! ### What a handler does to the registers -/

section Registers

variable (link : Word) (m : Machine)

lemma returnAddress_reg {r : Reg} (h6 : r ≠ 6) (h17 : r ≠ 17) :
    (returnAddress m).reg r = m.reg r := by
  have hstatus : ((m.mfs 6 .resr).andi 6 6 0x1000).reg r = m.reg r := by
    rw [Machine.andi, Machine.reg_setReg_of_ne _ h6, Machine.mfs, Machine.reg_setReg_of_ne _ h6]
  rw [returnAddress]
  split
  · exact hstatus
  · rw [Machine.mfs, Machine.reg_setReg_of_ne _ h17, hstatus]

lemma returnAddress_reg_r17 : (returnAddress m).reg 17 =
    if m.spr .resr &&& 0x1000 = 0 then m.reg 17 else m.spr .rbtr := by
  have hstatus : ((m.mfs 6 .resr).andi 6 6 0x1000).reg 6 = m.spr .resr &&& 0x1000 := by
    rw [Machine.andi, Machine.reg_setReg_self _ (by decide), Machine.mfs,
      Machine.reg_setReg_self _ (by decide)]
  rw [returnAddress, hstatus]
  split
  · rw [Machine.andi, Machine.reg_setReg_of_ne _ (by decide), Machine.mfs,
      Machine.reg_setReg_of_ne _ (by decide)]
  · exact Machine.reg_setReg_self _ (by decide) _

lemma handlerCall_reg_one : (handlerCall link m).reg 1 = m.reg 1 + -12 := by
  simp [handlerCall, Machine.brlid, Machine.mfs, Machine.reg_setReg, returnAddress_reg,
    Machine.addik]

lemma handlerCall_reg_link : (handlerCall link m).reg 15 = link :=
  Machine.reg_setReg_self _ (by decide) _

/-- The registers that a handler does not use. -/
lemma handlerCall_reg {r : Reg} (hr : r ∉ [1, 5, 6, 15, 17]) :
    (handlerCall link m).reg r = m.reg r := by
  simp only [List.mem_cons, List.not_mem_nil, or_false, not_or] at hr
  obtain ⟨h1, h5, h6, h15, h17⟩ := hr
  simp [handlerCall, Machine.brlid, Machine.mfs, Machine.reg_setReg, returnAddress_reg,
    Machine.addik, h1, h5, h6, h15, h17]

lemma returnAddress_word : (returnAddress m).word = m.word := by
  rw [returnAddress]
  split <;> rfl

/-- The three words that a handler writes below the stack pointer. -/
lemma handlerCall_word (ea : Word) : (handlerCall link m).word ea =
    if ea.toNat / 4 = (m.reg 1 + -12 + 8).toNat / 4 then
      (returnAddress (((m.addik 1 1 (-12)).swi 5 1 0).swi 6 1 4)).reg 17
    else if ea.toNat / 4 = (m.reg 1 + -12 + 4).toNat / 4 then m.reg 6
    else if ea.toNat / 4 = (m.reg 1 + -12).toNat / 4 then m.reg 5
    else m.word ea := by
  have hsp : (m.addik 1 1 (-12)).reg 1 = m.reg 1 + -12 := Machine.reg_setReg_self _ (by decide) _
  have hr5 : (m.addik 1 1 (-12)).reg 5 = m.reg 5 := Machine.reg_setReg_of_ne _ (by decide) _
  have hr6 : (m.addik 1 1 (-12)).reg 6 = m.reg 6 := Machine.reg_setReg_of_ne _ (by decide) _
  have hzero : m.reg 1 + -12 + 0 = m.reg 1 + -12 := BitVec.add_zero _
  rw [handlerCall, Machine.brlid, Machine.setReg_word, Machine.mfs, Machine.setReg_word,
    Machine.mfs, Machine.setReg_word, Machine.word_swi, returnAddress_word,
    returnAddress_reg _ (by decide) (by decide), Machine.word_swi, Machine.word_swi,
    Machine.swi_reg, Machine.swi_reg, hsp, hr5, hr6, hzero]
  rfl

/-- The C function finds `r5` and `r6` saved, and they are restored if it leaves them so. -/
lemma intact_of_word {c : Machine} (hword : c.word = (handlerCall link m).word)
    (hreg : ∀ r ∈ volatile, r ≠ 5 → r ≠ 6 → c.reg r = m.reg r) : Intact m c := by
  have h4 : (4 : Word).toNat = 4 := rfl
  have h8 : (8 : Word).toNat = 8 := rfl
  have hlt := (m.reg 1 + -12).isLt
  -- the three words are different ones
  have h04 : (m.reg 1 + -12).toNat / 4 ≠ (m.reg 1 + -12 + 4).toNat / 4 := by
    rw [BitVec.toNat_add _ 4, h4]
    omega
  have h08 : (m.reg 1 + -12).toNat / 4 ≠ (m.reg 1 + -12 + 8).toNat / 4 := by
    rw [BitVec.toNat_add _ 8, h8]
    omega
  have h48 : (m.reg 1 + -12 + 4).toNat / 4 ≠ (m.reg 1 + -12 + 8).toNat / 4 := by
    rw [BitVec.toNat_add _ 4, BitVec.toNat_add _ 8, h4, h8]
    omega
  refine ⟨hreg, ?_, ?_⟩
  · rw [hword, handlerCall_word, if_neg h08, if_neg h04, if_pos rfl]
  · rw [hword, handlerCall_word, if_neg h48, if_pos rfl]

lemma handlerReturn_reg_one : (handlerReturn m).reg 1 = m.reg 1 + 12 := by
  simp [handlerReturn, Machine.lwi, Machine.addik, Machine.reg_setReg]

lemma handlerReturn_reg_r5 : (handlerReturn m).reg 5 = m.word (m.reg 1) := by
  simp [handlerReturn, Machine.lwi, Machine.addik, Machine.reg_setReg]

lemma handlerReturn_reg_r6 : (handlerReturn m).reg 6 = m.word (m.reg 1 + 4) := by
  simp [handlerReturn, Machine.lwi, Machine.addik, Machine.reg_setReg]

lemma handlerReturn_reg {r : Reg} (hr : r ∉ [1, 5, 6, 17]) :
    (handlerReturn m).reg r = m.reg r := by
  simp only [List.mem_cons, List.not_mem_nil, or_false, not_or] at hr
  obtain ⟨h1, h5, h6, h17⟩ := hr
  simp [handlerReturn, Machine.lwi, Machine.addik, Machine.reg_setReg, h1, h5, h6, h17]

end Registers

/-! ### The interrupted code -/

/-- A handler is transparent just when the C function leaves alone what nobody saved, and what
the handler saved. -/
lemma handler_transparent_iff {except : Machine → Machine} (hconf : Conforming except)
    (link : Word) (m : Machine) :
    Transparent (fun m => handlerReturn (except (handlerCall link m))) m ↔
      Intact m (except (handlerCall link m)) := by
  -- the stack pointer is where the handler left it
  have hsp : (except (handlerCall link m)).reg 1 = m.reg 1 + -12 := by
    rw [hconf _ 1 (by decide), handlerCall_reg_one]
  constructor
  · intro h
    refine ⟨fun r hr h5 h6 => ?_, ?_, ?_⟩
    · have hne : r ∉ [1, 5, 6, 17] ∧ r ≠ 17 := by
        revert r
        decide
      rw [← handlerReturn_reg _ hne.1]
      exact h r hne.2
    · rw [← hsp, ← handlerReturn_reg_r5]
      exact h 5 (by decide)
    · rw [← hsp, ← handlerReturn_reg_r6]
      exact h 6 (by decide)
  · intro h r hr
    by_cases hused : r ∈ [1, 5, 6]
    · -- what the handler itself used is put back
      simp only [List.mem_cons, List.not_mem_nil, or_false] at hused
      rcases hused with rfl | rfl | rfl
      · rw [handlerReturn_reg_one, hsp, BitVec.add_assoc]
        exact BitVec.add_zero _
      · rw [handlerReturn_reg_r5, hsp]
        exact h.saved_r5
      · rw [handlerReturn_reg_r6, hsp]
        exact h.saved_r6
    · have hne : r ∉ [1, 5, 6, 17] ∧ r ≠ 5 ∧ r ≠ 6 := by
        revert r
        decide
      rw [handlerReturn_reg _ hne.1]
      rcases reg_cases r with rfl | hpres | hvol
      · rfl
      · have hne' : r ∉ [1, 5, 6, 15, 17] := by
          revert r
          decide
        rw [hconf _ r hpres, handlerCall_reg _ _ hne']
      · exact h.unsaved r hvol hne.2.1 hne.2.2

/-- **When an exception is transparent.**  For either handler, whatever the registers and the
status: just when the C function returns with the registers that nobody saved as they were,
the link register among them, and with the two saved ones in their words. -/
theorem exceptions_transparent_iff {xsoftExcept xhardExcept : Machine → Machine}
    (hsoft : Conforming xsoftExcept) (hhard : Conforming xhardExcept) (link : Word) (m : Machine) :
    (Transparent (exceptionHandler xsoftExcept link) m ↔
        Intact m (xsoftExcept (handlerCall link m))) ∧
      (Transparent (hwExceptionHandler xhardExcept link) m ↔
        Intact m (xhardExcept (handlerCall link m))) :=
  ⟨handler_transparent_iff hsoft link m, handler_transparent_iff hhard link m⟩

/-- A C function that restores the link register, which is 7 here, and otherwise changes only
an argument. -/
theorem exceptions_transparent_iff_quiet :
    Transparent (exceptionHandler (fun c => (c.setReg 5 0).setReg 15 7) 0x100)
        ⟨fun _ => 7, fun _ => 0x1000, fun _ => 0, 0, []⟩ ∧
      Transparent (hwExceptionHandler (fun c => (c.setReg 5 0).setReg 15 7) 0x100)
        ⟨fun _ => 7, fun _ => 0x1000, fun _ => 0, 0, []⟩ := by
  have hconf : Conforming fun c => (c.setReg 5 0).setReg 15 7 := fun c r hr => by
    have hne : r ≠ 15 ∧ r ≠ 5 := by
      revert r
      decide
    rw [Machine.reg_setReg_of_ne _ hne.1, Machine.reg_setReg_of_ne _ hne.2]
  obtain ⟨hsoft, hhard⟩ := exceptions_transparent_iff hconf hconf 0x100
    ⟨fun _ => 7, fun _ => 0x1000, fun _ => 0, 0, []⟩
  have hintact : Intact ⟨fun _ => 7, fun _ => 0x1000, fun _ => 0, 0, []⟩
      (((handlerCall 0x100 ⟨fun _ => 7, fun _ => 0x1000, fun _ => 0, 0, []⟩).setReg 5 0).setReg
        15 7) := by
    refine intact_of_word 0x100 _ rfl fun r hr h5 h6 => ?_
    by_cases h15 : r = 15
    · rw [h15, Machine.reg_setReg_self _ (by decide)]
      rfl
    · have hne : r ∉ [1, 5, 6, 15, 17] := by
        revert r
        decide
      rw [Machine.reg_setReg_of_ne _ h15, Machine.reg_setReg_of_ne _ h5, handlerCall_reg _ _ hne]
  exact ⟨hsoft.2 hintact, hhard.2 hintact⟩

/-- The C function need not do anything: the call has overwritten the link register. -/
theorem exceptions_link_lost :
    Conforming id ∧
      ¬ Transparent (exceptionHandler id 0x100) ⟨fun _ => 7, fun _ => 0, fun _ => 0, 0, []⟩ ∧
        ¬ Transparent (hwExceptionHandler id 0x100)
          ⟨fun _ => 7, fun _ => 0, fun _ => 0, 0, []⟩ := by
  have hlink : ∀ m : Machine, (handlerReturn (handlerCall 0x100 m)).reg 15 = 0x100 := fun m => by
    rw [handlerReturn_reg _ (by decide), handlerCall_reg_link]
  refine ⟨fun _ _ _ => rfl, fun h => ?_, fun h => ?_⟩
  · exact absurd ((hlink _).symm.trans (h 15 (by decide))) (by decide)
  · exact absurd ((hlink _).symm.trans (h 15 (by decide))) (by decide)

/-- The calling convention alone is never enough: from every state a function that follows it
loses a register. -/
theorem exists_conforming_not_transparent (link : Word) (m : Machine) :
    ∃ except, Conforming except ∧ ¬ Transparent (exceptionHandler except link) m ∧
      ¬ Transparent (hwExceptionHandler except link) m := by
  have hconf : Conforming fun c => c.setReg 3 (m.reg 3 + 1) := fun c r hr => by
    have hne : r ≠ 3 := by
      revert r
      decide
    exact Machine.reg_setReg_of_ne _ hne _
  have hlost : ¬ Intact m ((handlerCall link m).setReg 3 (m.reg 3 + 1)) := fun h => by
    have h3 := congrArg BitVec.toNat (h.unsaved 3 (by decide) (by decide) (by decide))
    have hone : (1 : Word).toNat = 1 := rfl
    rw [Machine.reg_setReg_self _ (by decide), BitVec.toNat_add, hone] at h3
    omega
  exact ⟨_, hconf, fun h => hlost ((handler_transparent_iff hconf link m).1 h),
    fun h => hlost ((handler_transparent_iff hconf link m).1 h)⟩

/-! ### The return -/

/-- The exception returns to where it came from, or from a delay slot to the target of the
branch, if the C function leaves the memory alone. -/
theorem handler_pc {except : Machine → Machine} (hconf : Conforming except) (link : Word)
    (m : Machine) (hword : (except (handlerCall link m)).word = (handlerCall link m).word) :
    (handlerReturn (except (handlerCall link m))).pc =
      if m.spr .resr &&& 0x1000 = 0 then m.reg 17 else m.spr .rbtr := by
  have hsp : (except (handlerCall link m)).reg 1 = m.reg 1 + -12 := by
    rw [hconf _ 1 (by decide), handlerCall_reg_one]
  have hreturn : (handlerReturn (except (handlerCall link m))).pc
      = (except (handlerCall link m)).word (m.reg 1 + -12 + 8) := by
    simp [handlerReturn, Machine.rted, Machine.lwi, Machine.addik, Machine.reg_setReg, hsp]
  have hr17 : (((m.addik 1 1 (-12)).swi 5 1 0).swi 6 1 4).reg 17 = m.reg 17 := by
    rw [Machine.swi_reg, Machine.swi_reg, Machine.addik, Machine.reg_setReg_of_ne _ (by decide)]
  rw [hreturn, hword, handlerCall_word, if_pos rfl, returnAddress_reg_r17, hr17]
  rfl

end EvtDrivenOs.Exceptions
