/-
The part of the x86-64 instruction set that small assembly routines use, as functions
on a machine state.

A label of the assembly is a Lean function on states and a jump is a call of it.  The
stack is a list of words with the top first; it is apart from the memory that the string
instructions access.  A routine gives the state at its `ret`, before the return address
is popped, so that what `ret` finds on top of the stack can be stated.  Loops that poll a
device take fuel.
-/
import Mathlib.Data.BitVec
import Mathlib.Data.Stream.Init
import Mathlib.Logic.Function.Iterate

namespace EvtDrivenOs.Lib.X64

/-- What the outside of the processor sees of a run: bytes written to ports, and words
moved from and to them. -/
inductive Io where
  | out (port : BitVec 16) (value : BitVec 8)
  | inw (port : BitVec 16)
  | outw (port : BitVec 16) (value : BitVec 16)
deriving DecidableEq

/-! ### Calls -/

section Call

variable {σ : Type*} {push : σ → BitVec 64 → σ} {drop : σ → σ} {stack : σ → List (BitVec 64)}
  {s t : σ} {ra : BitVec 64} {f : σ → Option σ}

/-- `call`, for a state with a stack, with `ra` for the address of the next instruction.  The
callee has to leave that address on top of the stack; where its `ret` leads otherwise is not
modelled. -/
def callOn (push : σ → BitVec 64 → σ) (drop : σ → σ) (stack : σ → List (BitVec 64)) (s : σ)
    (ra : BitVec 64) (f : σ → Option σ) : Option σ :=
  (f (push s ra)).bind fun t => if (stack t).head? = some ra then some (drop t) else none

/-- A callee that leaves the return address on top of the stack is returned from. -/
lemma callOn_of_head (h : f (push s ra) = some t) (htop : (stack t).head? = some ra) :
    callOn push drop stack s ra f = some (drop t) := by
  rw [callOn, h, Option.bind_some, if_pos htop]

lemma callOn_of_none (h : f (push s ra) = none) : callOn push drop stack s ra f = none := by
  rw [callOn, h, Option.bind_none]

lemma of_callOn_eq_some (h : callOn push drop stack s ra f = some t) :
    ∃ u, f (push s ra) = some u ∧ t = drop u := by
  obtain ⟨u, hu, h⟩ := Option.bind_eq_some_iff.mp h
  split at h
  · exact ⟨u, hu, (Option.some.inj h).symm⟩
  · cases h

end Call

/-- The registers that the routines use, the stack and the memory, and the outside: what the
ports are going to give, and what has been done to them. -/
structure Machine where
  rax : BitVec 64
  rbx : BitVec 64
  rcx : BitVec 64
  rdx : BitVec 64
  rsi : BitVec 64
  rdi : BitVec 64
  r8 : BitVec 64
  r12 : BitVec 64
  rsp : BitVec 64
  /-- The direction flag. -/
  df : Bool
  /-- The words from `rsp` on. -/
  stack : List (BitVec 64)
  mem : BitVec 64 → BitVec 8
  /-- The values that the reads of a port give, one after the other. -/
  inp : BitVec 16 → Stream' (BitVec 16)
  log : List Io

/-! ### Parts of registers -/

/-- The register with another lowest byte. -/
def setLow8 (r : BitVec 64) (v : BitVec 8) : BitVec 64 := r.extractLsb' 8 56 ++ v

/-- The register with other two lowest bytes. -/
def setLow16 (r : BitVec 64) (v : BitVec 16) : BitVec 64 := r.extractLsb' 16 48 ++ v

@[simp] lemma low8_setLow8 (r : BitVec 64) (v : BitVec 8) : (setLow8 r v).setWidth 8 = v := by
  apply BitVec.eq_of_getLsbD_eq
  intro i hi
  simp only [setLow8, BitVec.getLsbD_setWidth, BitVec.getLsbD_append, hi]
  simp

@[simp] lemma low16_setLow16 (r : BitVec 64) (v : BitVec 16) :
    (setLow16 r v).setWidth 16 = v := by
  apply BitVec.eq_of_getLsbD_eq
  intro i hi
  simp only [setLow16, BitVec.getLsbD_setWidth, BitVec.getLsbD_append, hi]
  simp

@[simp] lemma setLow8_setLow8 (r : BitVec 64) (v w : BitVec 8) :
    setLow8 (setLow8 r v) w = setLow8 r w := by
  apply BitVec.eq_of_getLsbD_eq
  intro i hi
  simp only [setLow8, BitVec.getLsbD_append, BitVec.getLsbD_extractLsb']
  by_cases h : i < 8
  · simp [h]
  · have hi8 : ¬ 8 + (i - 8) < 8 := by omega
    simp [h, hi8]

@[simp] lemma setLow16_setLow16 (r : BitVec 64) (v w : BitVec 16) :
    setLow16 (setLow16 r v) w = setLow16 r w := by
  apply BitVec.eq_of_getLsbD_eq
  intro i hi
  simp only [setLow16, BitVec.getLsbD_append, BitVec.getLsbD_extractLsb']
  by_cases h : i < 16
  · simp [h]
  · have hi16 : ¬ 16 + (i - 16) < 16 := by omega
    simp [h, hi16]

namespace Machine

variable (s : Machine)

/-- The lowest byte of `rax`. -/
@[simp] def al : BitVec 8 := s.rax.setWidth 8

/-- The lowest byte of `rbx`. -/
@[simp] def bl : BitVec 8 := s.rbx.setWidth 8

/-- The two lowest bytes of `rdi`. -/
@[simp] def di : BitVec 16 := s.rdi.setWidth 16

/-- The two lowest bytes of `rdx`, which name the port of an `in` or `out`. -/
@[simp] def dx : BitVec 16 := s.rdx.setWidth 16

/-- The rest of `rax` stays. -/
@[simp] def setAl (v : BitVec 8) : Machine := { s with rax := setLow8 s.rax v }

/-- The rest of `rbx` stays. -/
@[simp] def setBl (v : BitVec 8) : Machine := { s with rbx := setLow8 s.rbx v }

/-- The rest of `rdi` stays. -/
@[simp] def setDi (v : BitVec 16) : Machine := { s with rdi := setLow16 s.rdi v }

/-- The rest of `rdx` stays. -/
@[simp] def setDx (v : BitVec 16) : Machine := { s with rdx := setLow16 s.rdx v }

/-! ### The stack -/

/-- `push v` -/
@[simp] def push (v : BitVec 64) : Machine := { s with stack := v :: s.stack, rsp := s.rsp - 8 }

/-- What the next `pop` gets. -/
@[simp] def top : BitVec 64 := s.stack.headD 0

/-- The stack without its top. -/
@[simp] def drop : Machine := { s with stack := s.stack.tail, rsp := s.rsp + 8 }

/-- `pop rax` -/
@[simp] def popRax : Machine := { s.drop with rax := s.top }

/-- `pop rbx` -/
@[simp] def popRbx : Machine := { s.drop with rbx := s.top }

/-- `pop rcx` -/
@[simp] def popRcx : Machine := { s.drop with rcx := s.top }

/-- `pop rdx` -/
@[simp] def popRdx : Machine := { s.drop with rdx := s.top }

/-- `pop r12` -/
@[simp] def popR12 : Machine := { s.drop with r12 := s.top }

/-- `call` -/
def call (ra : BitVec 64) (f : Machine → Option Machine) : Option Machine :=
  callOn push drop stack s ra f

/-- A callee that leaves the return address on top of the stack is returned from. -/
lemma call_of_eq {s t : Machine} {ra : BitVec 64} {f : Machine → Option Machine}
    (h : f (s.push ra) = some t) (htop : t.stack = ra :: s.stack) :
    s.call ra f = some { t with stack := s.stack, rsp := t.rsp + 8 } := by
  have hhead : t.stack.head? = some ra := by
    rw [htop, List.head?_cons]
  rw [call, callOn_of_head h hhead, drop, htop, List.tail_cons]

lemma of_call_eq_some {s t : Machine} {ra : BitVec 64} {f : Machine → Option Machine}
    (h : s.call ra f = some t) : ∃ u, f (s.push ra) = some u ∧ t = u.drop :=
  of_callOn_eq_some h

/-! ### Ports and strings -/

/-- The next value of the port `p` is read. -/
@[simp] def eat (p : BitVec 16) : Machine :=
  { s with inp := Function.update s.inp p (s.inp p).tail }

/-- `in al, dx` -/
@[simp] def inAl : Machine := (s.eat s.dx).setAl ((s.inp s.dx).head.setWidth 8)

/-- `out dx, al` -/
@[simp] def outAl : Machine := { s with log := s.log ++ [.out s.dx s.al] }

/-- How far a string instruction on words moves its pointer. -/
def wordStep : BitVec 64 := if s.df then -2 else 2

/-- `insw`: a word from the port goes to memory at `rdi`. -/
def insw : Machine :=
  let w := (s.inp s.dx).head
  { s.eat s.dx with
    mem := fun a => if a = s.rdi then w.setWidth 8
      else if a = s.rdi + 1 then (w >>> 8).setWidth 8 else s.mem a
    rdi := s.rdi + s.wordStep
    log := s.log ++ [.inw s.dx] }

/-- `outsw`: the word in memory at `rsi` goes to the port. -/
def outsw : Machine :=
  { s with
    rsi := s.rsi + s.wordStep
    log := s.log ++ [.outw s.dx (s.mem (s.rsi + 1) ++ s.mem s.rsi)] }

/-- `dec rcx` -/
@[simp] def decRcx : Machine := { s with rcx := s.rcx - 1 }

/-- The instruction `rep insw`. -/
def repInsw : Machine := (fun s => s.insw.decRcx)^[s.rcx.toNat] s

/-- A loop closed by `loop`, which decrements `rcx` and jumps back unless it is zero
then; the body leaves `rcx` alone. -/
def loop (body : Machine → Machine) : Machine :=
  (fun s => (body s).decRcx)^[if s.rcx = 0 then 2 ^ 64 else s.rcx.toNat] s

end Machine

/-! ### What the string instructions leave alone -/

/-- The event moves a word through the port `p`. -/
def Io.IsWord (p : BitVec 16) : Io → Prop
  | .out _ _ => False
  | .inw q => q = p
  | .outw q _ => q = p

instance (p : BitVec 16) : DecidablePred (Io.IsWord p)
  | .out _ _ => isFalse id
  | .inw q => inferInstanceAs (Decidable (q = p))
  | .outw q _ => inferInstanceAs (Decidable (q = p))

/-- The byte written to the port `p` last. -/
def lastOut (p : BitVec 16) : List Io → Option (BitVec 8)
  | [] => none
  | .out q v :: io => (lastOut p io).or (if q = p then some v else none)
  | _ :: io => lastOut p io

lemma lastOut_append (p : BitVec 16) (io io' : List Io) :
    lastOut p (io ++ io') = (lastOut p io').or (lastOut p io) := by
  induction io with
  | nil => simp [lastOut]
  | cons e io ih => cases e <;> simp only [List.cons_append, lastOut, ih, Option.or_assoc]

lemma lastOut_words {p q : BitVec 16} {ws : List Io} (h : ∀ w ∈ ws, w.IsWord q) :
    lastOut p ws = none := by
  induction ws with
  | nil => rfl
  | cons w ws ih =>
    have hw := h w List.mem_cons_self
    have hws := ih fun v hv => h v (List.mem_cons_of_mem w hv)
    cases w with
    | out r v => exact hw.elim
    | inw r => exact hws
    | outw r v => exact hws

/-- Between `s` and `t` just `n` words were moved through the port in `dx`. -/
structure Moved (n : ℕ) (s t : Machine) : Prop where
  rdx : t.rdx = s.rdx
  r12 : t.r12 = s.r12
  rsp : t.rsp = s.rsp
  stack : t.stack = s.stack
  inp : ∀ p, p ≠ s.dx → t.inp p = s.inp p
  log : ∃ ws, t.log = s.log ++ ws ∧ ws.length = n ∧ ∀ w ∈ ws, w.IsWord s.dx

namespace Moved

variable {n : ℕ} {s t : Machine}

lemma refl (s : Machine) : Moved 0 s s :=
  ⟨rfl, rfl, rfl, rfl, fun _ _ => rfl, [], by simp, rfl, by simp⟩

/-- One more word, whatever else it does to the registers of the string instructions. -/
lemma succ (h : Moved n s t) {w : Io} {rcx rsi rdi : BitVec 64} {mem : BitVec 64 → BitVec 8}
    {inp : BitVec 16 → Stream' (BitVec 16)} (hw : w.IsWord t.dx)
    (hinp : ∀ p, p ≠ t.dx → inp p = t.inp p) :
    Moved (n + 1) s { t with
      rcx := rcx, rsi := rsi, rdi := rdi, mem := mem, inp := inp, log := t.log ++ [w] } := by
  obtain ⟨ws, hlog, hlen, hws⟩ := h.log
  have hdx : t.dx = s.dx := by simp only [Machine.dx, h.rdx]
  refine ⟨h.rdx, h.r12, h.rsp, h.stack, fun p hp => ?_, ws ++ [w], ?_, ?_, ?_⟩
  · exact (hinp p (hdx ▸ hp)).trans (h.inp p hp)
  · simp only [hlog, List.append_assoc]
  · rw [List.length_append, hlen, List.length_singleton]
  · intro v hv
    rcases List.mem_append.mp hv with hv | hv
    · exact hws v hv
    · rw [List.mem_singleton.mp hv, ← hdx]
      exact hw

lemma insw (h : Moved n s t) : Moved (n + 1) s t.insw.decRcx :=
  h.succ (w := .inw t.dx) rfl fun _ hp => Function.update_of_ne hp _ _

lemma outsw (h : Moved n s t) : Moved (n + 1) s t.outsw.decRcx :=
  h.succ (w := .outw t.dx _) rfl fun _ _ => rfl

lemma iterate {f : Machine → Machine} (hf : ∀ n s t, Moved n s t → Moved (n + 1) s (f t)) (n : ℕ)
    (s : Machine) : Moved n s (f^[n] s) := by
  induction n with
  | zero => exact refl s
  | succ n ih =>
    rw [Function.iterate_succ_apply']
    exact hf _ _ _ ih

lemma repInsw (s : Machine) : Moved s.rcx.toNat s s.repInsw :=
  iterate (fun _ _ _ h => h.insw) _ s

lemma loop_outsw {s : Machine} (hs : s.rcx ≠ 0) : Moved s.rcx.toNat s (s.loop .outsw) := by
  rw [Machine.loop, if_neg hs]
  exact iterate (fun _ _ _ h => h.outsw) _ s

end Moved

end EvtDrivenOs.Lib.X64
