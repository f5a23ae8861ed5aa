/-
The flush of the PS/2 controller's output buffer, `flush_ps2_data` of `ps2.asm`.

The routine reads a byte for as long as the status register shows one, but from port 8,
the number of a status bit, and not from the data port.  That read takes nothing out of
the controller, so the loop ends only if there is nothing to flush.
-/
import EvtDrivenOs.Lib.X64

namespace EvtDrivenOs.Ps2

open EvtDrivenOs.Lib.X64

/-! ### The constants -/

/-- `PS2_ST_OE_FLAG` -/
def ps2StOeFlag : BitVec 8 := 1 <<< 0

/-- `PS2_CMD_DATA_FLAG` -/
def ps2CmdDataFlag : BitVec 8 := 1 <<< 3

/-- `PS2_DATA_PORT` -/
def ps2DataPort : BitVec 8 := 0x60

/-- `PS2_CMD_ST_PORT` -/
def ps2CmdStPort : BitVec 8 := 0x64

/-! ### The controller -/

/-- The processor and the bytes in the output buffer of the controller, the oldest first. -/
structure Host where
  cpu : Machine
  pending : List (BitVec 8)

/-- The status register: its first bit is set while bytes are pending, and the others are
those of `v`. -/
def status (pending : List (BitVec 8)) (v : BitVec 8) : BitVec 8 :=
  if pending = [] then v &&& ~~~ps2StOeFlag else v ||| ps2StOeFlag

lemma status_and (pending : List (BitVec 8)) (v : BitVec 8) :
    status pending v &&& ps2StOeFlag = 0 ↔ pending = [] := by
  by_cases h : pending = []
  · simp [status, h, ps2StOeFlag, BitVec.and_assoc]
  · simp only [status, h, iff_false]
    intro hzero
    have hbit := congrArg (BitVec.getLsbD · 0) hzero
    simp [ps2StOeFlag] at hbit

namespace Host

variable (s : Host)

/-- `in al, port`, with the port as an immediate byte.  What a port gives, apart from the
controller's part in it, is the next value of `cpu.inp`. -/
def inAl (port : BitVec 8) : Host :=
  let v := (s.cpu.inp (port.setWidth 16)).head.setWidth 8
  let cpu := s.cpu.eat (port.setWidth 16)
  if port = ps2CmdStPort then { s with cpu := cpu.setAl (status s.pending v) }
  else if port = ps2DataPort then
    { cpu := cpu.setAl (s.pending.headD v), pending := s.pending.tail }
  else { s with cpu := cpu.setAl v }

/-! ### The routine -/

/-- The loop of `flush_ps2_data`, with the port that it reads the bytes from. -/
def ps2DataFlushLoop (port : BitVec 8) : ℕ → Host → Option Host
  | 0, _ => none
  | fuel + 1, s =>
    let s := s.inAl ps2CmdStPort
    if s.cpu.al &&& ps2StOeFlag = 0 then some s
    else ps2DataFlushLoop port fuel (s.inAl port)

/-- `flush_ps2_data`: the data port is read until the buffer is empty. -/
def flushPs2Data (fuel : ℕ) : Option Host :=
  (ps2DataFlushLoop ps2CmdDataFlag fuel { s with cpu := s.cpu.push s.cpu.rax }).map
    fun s => { s with cpu := s.cpu.popRax }

/-! ### What the reads do -/

variable {s}

lemma inAl_status_al : (s.inAl ps2CmdStPort).cpu.al =
    status s.pending ((s.cpu.inp (ps2CmdStPort.setWidth 16)).head.setWidth 8) := by
  simp [inAl]

lemma inAl_status_pending : (s.inAl ps2CmdStPort).pending = s.pending := by
  simp [inAl]

lemma inAl_data_pending : (s.inAl ps2DataPort).pending = s.pending.tail := by
  simp [inAl, ps2DataPort, ps2CmdStPort]

lemma inAl_pending {port : BitVec 8} (h : port ≠ ps2DataPort) :
    (s.inAl port).pending = s.pending := by
  simp only [inAl, if_neg h]
  split_ifs <;> rfl

/-- A read leaves everything but `rax` and the port's values. -/
lemma inAl_stack (port : BitVec 8) :
    (s.inAl port).cpu.stack = s.cpu.stack ∧ (s.inAl port).cpu.rsp = s.cpu.rsp := by
  simp only [inAl]
  split_ifs <;> exact ⟨rfl, rfl⟩

/-- The loop looks at the status and reads a byte, or ends. -/
lemma ps2DataFlushLoop_succ (port : BitVec 8) (fuel : ℕ) (s : Host) :
    ps2DataFlushLoop port (fuel + 1) s =
      if s.pending = [] then some (s.inAl ps2CmdStPort)
      else ps2DataFlushLoop port fuel ((s.inAl ps2CmdStPort).inAl port) := by
  rw [ps2DataFlushLoop]
  simp only [inAl_status_al, status_and]

/-! ### The loop -/

/-- The loop ends when the buffer is empty, and leaves the stack as it was. -/
lemma ps2DataFlushLoop_some {port : BitVec 8} {fuel : ℕ} {t : Host}
    (h : ps2DataFlushLoop port fuel s = some t) :
    t.pending = [] ∧ t.cpu.stack = s.cpu.stack ∧ t.cpu.rsp = s.cpu.rsp := by
  induction fuel generalizing s with
  | zero => cases h
  | succ fuel ih =>
    rw [ps2DataFlushLoop_succ] at h
    split_ifs at h with hempty
    · cases h
      exact ⟨inAl_status_pending.trans hempty, inAl_stack ps2CmdStPort⟩
    · obtain ⟨hpending, hstack, hrsp⟩ := ih h
      obtain ⟨hstack', hrsp'⟩ := (s.inAl ps2CmdStPort).inAl_stack port
      obtain ⟨hstack'', hrsp''⟩ := s.inAl_stack ps2CmdStPort
      exact ⟨hpending, hstack.trans (hstack'.trans hstack''), hrsp.trans (hrsp'.trans hrsp'')⟩

/-- With the data port, each pass takes a byte, and the loop ends when there is none left. -/
lemma ps2DataFlushLoop_data {fuel : ℕ} (h : s.pending.length < fuel) :
    ∃ t, ps2DataFlushLoop ps2DataPort fuel s = some t := by
  induction fuel generalizing s with
  | zero => exact absurd h (Nat.not_lt_zero _)
  | succ fuel ih =>
    rw [ps2DataFlushLoop_succ]
    split_ifs with hempty
    · exact ⟨_, rfl⟩
    · apply ih
      rw [inAl_data_pending, inAl_status_pending, List.length_tail]
      have hpos := List.length_pos_of_ne_nil hempty
      omega

/-- With another port, a pass takes nothing, and the loop goes on for ever. -/
lemma ps2DataFlushLoop_other {port : BitVec 8} (hport : port ≠ ps2DataPort)
    (h : s.pending ≠ []) (fuel : ℕ) : ps2DataFlushLoop port fuel s = none := by
  induction fuel generalizing s with
  | zero => rfl
  | succ fuel ih =>
    rw [ps2DataFlushLoop_succ, if_neg h]
    apply ih
    rwa [inAl_pending hport, inAl_status_pending]

/-- The loop ends just if nothing is pending or it reads the data port. -/
lemma ps2DataFlushLoop_ends_iff (port : BitVec 8) (s : Host) :
    (∃ fuel t, ps2DataFlushLoop port fuel s = some t) ↔
      s.pending = [] ∨ port = ps2DataPort := by
  constructor
  · rintro ⟨fuel, t, hrun⟩
    by_contra hnot
    obtain ⟨hpending, hport⟩ := not_or.mp hnot
    rw [ps2DataFlushLoop_other hport hpending fuel] at hrun
    cases hrun
  · rintro (hempty | rfl)
    · exact ⟨1, _, by rw [ps2DataFlushLoop_succ, if_pos hempty]⟩
    · exact ⟨_, ps2DataFlushLoop_data (Nat.lt_succ_self _)⟩

/-! ### The flush -/

/-- `flush_ps2_data` ends, has emptied the output buffer, and leaves `rax` and the stack. -/
def Flushes (s : Host) : Prop :=
  ∃ fuel t, s.flushPs2Data fuel = some t ∧ t.pending = [] ∧
    t.cpu.rax = s.cpu.rax ∧ t.cpu.stack = s.cpu.stack ∧ t.cpu.rsp = s.cpu.rsp

/-- The output buffer is flushed just if nothing is pending in it. -/
theorem flushPs2Data_iff (s : Host) : s.Flushes ↔ s.pending = [] := by
  have hends := ps2DataFlushLoop_ends_iff ps2CmdDataFlag { s with cpu := s.cpu.push s.cpu.rax }
  rw [or_iff_left (by decide)] at hends
  refine Iff.trans ?_ hends
  constructor
  · rintro ⟨fuel, t, hflush, -⟩
    obtain ⟨u, hloop, -⟩ := Option.map_eq_some_iff.mp hflush
    exact ⟨fuel, u, hloop⟩
  · rintro ⟨fuel, u, hloop⟩
    obtain ⟨hpending, hstack, hrsp⟩ := ps2DataFlushLoop_some hloop
    refine ⟨fuel, { u with cpu := u.cpu.popRax }, ?_, hpending, ?_⟩
    · rw [flushPs2Data, hloop, Option.map_some]
    · simp [hstack, hrsp]

/-- A processor with nothing in its registers, and a keyboard's acknowledge that is pending. -/
def acked : Host where
  cpu :=
    { rax := 0, rbx := 0, rcx := 0, rdx := 0, rsi := 0, rdi := 0, r8 := 0, r12 := 0, rsp := 0
      df := false, stack := [], mem := fun _ => 0, inp := fun _ => .const 0, log := [] }
  pending := [0xFA]

/-- The flush does not come to an end then. -/
theorem flushPs2Data_acked : (∀ fuel, acked.flushPs2Data fuel = none) ∧ ¬ acked.Flushes := by
  have hnone : ∀ fuel, acked.flushPs2Data fuel = none := by
    intro fuel
    rw [flushPs2Data, ps2DataFlushLoop_other (by decide) (by simp [acked]), Option.map_none]
  refine ⟨hnone, ?_⟩
  rintro ⟨fuel, t, hflush, -⟩
  rw [hnone fuel] at hflush
  cases hflush

end Host

end EvtDrivenOs.Ps2
