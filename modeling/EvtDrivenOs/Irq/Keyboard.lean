/-
The interrupt of the keyboard, `_isr_keyboard` of `isrs.asm`.

What has been interrupted finds its registers and its stack as they were.  Over a run of the
program with interrupts anywhere in it, every byte of the keyboard is read once, each interrupt
is ended once, and the driver is told of just the bytes that are codes of keys, in their order.
-/
import EvtDrivenOs.Irq.Routing
import EvtDrivenOs.Keyb

namespace EvtDrivenOs.Irq

open EvtDrivenOs.Lib.X64 EvtDrivenOs.Keyb

/-! ### The code -/

/-- The processor, the state of the keyboard driver, and the events that have been published. -/
structure System extends Hart where
  keybState : BitVec 8
  published : List ConsoleKey

/-- A program that can be interrupted: the system, with the registers that an interrupt saves. -/
structure Task extends System where
  rip : BitVec 64
  rflags : BitVec 64
  /-- The direction flag is one of the flags. -/
  flags_df : rflags.getLsbD 10 = df

namespace System

variable (s : System)

/-- An instruction that has nothing to do with the driver. -/
def on (f : Hart → Hart) : System := { s with toHart := f s.toHart }

/-- `call` -/
def call (ra : BitVec 64) (f : System → Option System) : Option System :=
  callOn (fun s v => s.on (·.push v)) (·.on (·.drop)) (·.stack) s ra f

end System

/-- The kernel's side of the call, `_kernel_onKeybScan` as it has been compiled.  It leaves what
the calling convention wants it to leave, and does with the byte in `dil` what its source says;
other registers and the memory are as it pleases.  As it is compiled without vector instructions,
where the stack is aligned does not matter to it. -/
structure Kernel where
  run : System → System
  abi : ∀ s, (run s).rbx = s.rbx ∧ (run s).r12 = s.r12 ∧ (run s).stack = s.stack
  devices : ∀ s, (run s).lapic = s.lapic ∧ (run s).inp 0x60 = s.inp 0x60
  scan : ∀ s, (run s).keybState = (kernelOnKeybScan s.keybState (s.rdi.setWidth 8)).1 ∧
    (run s).published =
      s.published ++ (kernelOnKeybScan s.keybState (s.rdi.setWidth 8)).2.toList

/-- `lapic_eoi`: the end of the interrupt is signalled. -/
def lapicEoi (s : System) : Option System := some (s.on (·.storeLapic EOI_REG 0))

namespace Hart

variable (h : Hart)

/-- `sub rsp, 8`; the word that is then on top is what has been there. -/
def reserve (left : BitVec 64) : Hart := { h with rsp := h.rsp - 8, stack := left :: h.stack }

/-- `movzx edi, al` -/
def movzxEdiAl : Hart := { h with rdi := (h.rax.setWidth 8).setWidth 64 }

/-- `pop r8` -/
def popR8 : Hart := { h.drop with r8 := h.top }

/-- `pop r9` -/
def popR9 : Hart := { h.drop with r9 := h.top }

/-- `pop r10` -/
def popR10 : Hart := { h.drop with r10 := h.top }

/-- `pop r11` -/
def popR11 : Hart := { h.drop with r11 := h.top }

/-- The registers that a call need not keep. -/
def pushAll : Hart :=
  let h := ((h.push h.rax).push h.rcx).push h.rdx
  let h := (h.push h.rsi).push h.rdi
  (((h.push h.r8).push h.r9).push h.r10).push h.r11

/-- The registers come back in the opposite order. -/
def popAll : Hart :=
  let h := h.popR11.popR10.popR9.popR8
  let h := h.popRdi.popRsi
  h.popRdx.popRcx.popRax

end Hart

/-- The bytes that are no codes: the keyboard has tested itself, or it has understood a command. -/
def isAnswer (v : BitVec 8) : Bool := v = 0xAA || v = 0xFA

/-- `_isr_keyboard`, to the `iretq`. -/
def isrKeyboard (kernel : Kernel) (behind : ℕ → BitVec 64) (left : BitVec 64) (s : System) :
    Option System := do
  let s := s.on (·.pushAll)
  let s := s.on (·.inAl 0x60)
  let s ← if isAnswer (s.rax.setWidth 8) then some s
    else do
      let s := s.on fun h => (h.reserve left).movzxEdiAl
      let s ← s.call (behind 0) fun s => some (kernel.run s)
      some (s.on (·.drop))
  let s ← s.call (behind 1) lapicEoi
  some (s.on (·.popAll))

/-- What the processor does first: it aligns the stack, and saves its state there.  The gap that
the alignment leaves is no entry of the stack. -/
def Task.enter (p : Task) : System :=
  p.on fun h => { h with
    rsp := (h.rsp &&& ~~~15) - 40
    stack := p.rip :: 0x08 :: p.rflags :: h.rsp :: 0 :: h.stack }

/-- The task that goes on with the values of the processor's state that have been saved. -/
def System.resume (s : System) (rip rflags rsp : BitVec 64) (stack : List (BitVec 64)) : Task :=
  { s with rsp := rsp, stack := stack, df := rflags.getLsbD 10, rip := rip, rflags := rflags,
           flags_df := rfl }

/-- `iretq`: the return to what was interrupted. -/
def iretq (s : System) : Option Task :=
  match s.stack with
  | rip :: _ :: rflags :: rsp :: _ :: stack => some (s.resume rip rflags rsp stack)
  | _ => none

/-- An interrupt of the keyboard. -/
def interrupt (kernel : Kernel) (behind : ℕ → BitVec 64) (left : BitVec 64) (p : Task) :
    Option Task :=
  (isrKeyboard kernel behind left p.enter).bind iretq

/-! ### What an interrupt is for -/

/-- The state of the driver with its events, when it is told of a code. -/
def tell (d : BitVec 8 × List ConsoleKey) (v : BitVec 8) : BitVec 8 × List ConsoleKey :=
  ((kernelOnKeybScan d.1 v).1, d.2 ++ (kernelOnKeybScan d.1 v).2.toList)

/-- The keyboard apart from the processor: the bytes it will give, the interrupts that have been
ended, and what the driver has made of it. -/
structure Keyboard where
  bytes : Stream' (BitVec 16)
  ended : ℕ
  driver : BitVec 8 × List ConsoleKey

/-- What the interrupts of the keyboard are about. -/
def System.keyboard (s : System) : Keyboard := ⟨s.inp 0x60, s.lapic.eois, s.keybState, s.published⟩

namespace Keyboard

/-- The byte that the data port shows. -/
def byte (k : Keyboard) : BitVec 8 := k.bytes.head.setWidth 8

/-- What one interrupt is for. -/
def serve (k : Keyboard) : Keyboard where
  bytes := k.bytes.tail
  ended := k.ended + 1
  driver := if isAnswer k.byte then k.driver else tell k.driver k.byte

/-- The codes among the next `n` bytes. -/
def codes (k : Keyboard) (n : ℕ) : List (BitVec 8) :=
  ((k.bytes.take n).map (·.setWidth 8)).filter fun v => !isAnswer v

lemma codes_succ (k : Keyboard) (n : ℕ) : k.codes (n + 1) =
    if isAnswer ((k.bytes.get n).setWidth 8) then k.codes n
    else k.codes n ++ [(k.bytes.get n).setWidth 8] := by
  rw [codes, Stream'.take_succ', List.map_append, List.filter_append]
  by_cases hans : isAnswer ((k.bytes.get n).setWidth 8) = true
  · simp [codes, hans]
  · simp [codes, hans]

lemma iterate_serve (k : Keyboard) (n : ℕ) :
    serve^[n] k = ⟨k.bytes.drop n, k.ended + n, (k.codes n).foldl tell k.driver⟩ := by
  induction n with
  | zero => rfl
  | succ n ih =>
    have hbyte : (k.bytes.drop n).head = k.bytes.get n := Stream'.head_drop _ _
    rw [Function.iterate_succ_apply', ih, codes_succ]
    simp only [serve, byte, hbyte, Stream'.tail_drop']
    by_cases hans : isAnswer ((k.bytes.get n).setWidth 8) = true
    · rw [if_pos hans, if_pos hans, Nat.add_assoc]
    · rw [if_neg hans, if_neg hans, List.foldl_append, Nat.add_assoc]
      rfl

end Keyboard

/-! ### What an interrupt does -/

/-- What has been interrupted goes on as it was. -/
structure Resumed (p q : Task) : Prop where
  saved : q.rax = p.rax ∧ q.rcx = p.rcx ∧ q.rdx = p.rdx ∧ q.rsi = p.rsi ∧ q.rdi = p.rdi ∧
    q.r8 = p.r8 ∧ q.r9 = p.r9 ∧ q.r10 = p.r10 ∧ q.r11 = p.r11
  kept : q.rbx = p.rbx ∧ q.r12 = p.r12
  rsp : q.rsp = p.rsp
  stack : q.stack = p.stack
  rip : q.rip = p.rip
  rflags : q.rflags = p.rflags
  df : q.df = p.df

/-- The stack, when the registers have been pushed. -/
def Task.saved (p : Task) : List (BitVec 64) :=
  p.r11 :: p.r10 :: p.r9 :: p.r8 :: p.rdi :: p.rsi :: p.rdx :: p.rcx :: p.rax ::
    p.rip :: 0x08 :: p.rflags :: p.rsp :: 0 :: p.stack

/-- Inside the interrupt: what has been saved is on the stack, and the rest is kept. -/
structure Within (p : Task) (s : System) : Prop where
  stack : s.stack = p.saved
  rbx : s.rbx = p.rbx
  r12 : s.r12 = p.r12

lemma Hart.pushAll_eq (h : Hart) : h.pushAll =
    { h with stack := h.r11 :: h.r10 :: h.r9 :: h.r8 :: h.rdi :: h.rsi :: h.rdx :: h.rcx :: h.rax ::
               h.stack, rsp := h.rsp - 72 } := by
  have hrsp : h.rsp - 8 - 8 - 8 - 8 - 8 - 8 - 8 - 8 - 8 = h.rsp - 72 := by
    simp only [BitVec.sub_sub]
    rfl
  simp only [Hart.pushAll, Hart.push, Machine.push, hrsp]

lemma Hart.popAll_eq {h : Hart} {r8 r9 r10 r11 rdi rsi rdx rcx rax : BitVec 64}
    {stack : List (BitVec 64)}
    (hs : h.stack = r11 :: r10 :: r9 :: r8 :: rdi :: rsi :: rdx :: rcx :: rax :: stack) :
    h.popAll = { h with r11 := r11, r10 := r10, r9 := r9, r8 := r8, rdi := rdi, rsi := rsi,
                        rdx := rdx, rcx := rcx, rax := rax, stack := stack
                        rsp := h.rsp + 72 } := by
  have hrsp : h.rsp + 8 + 8 + 8 + 8 + 8 + 8 + 8 + 8 + 8 = h.rsp + 72 := by
    simp only [BitVec.add_assoc]
    rfl
  simp only [Hart.popAll, Hart.popR11, Hart.popR10, Hart.popR9, Hart.popR8, Hart.popRdi,
    Hart.popRsi, Hart.popRdx, Hart.popRcx, Hart.popRax, Hart.drop, Machine.drop, Machine.popRdx,
    Machine.popRcx, Machine.popRax, Machine.top, hs, List.headD_cons, List.tail_cons, hrsp]

section Interrupt

variable {p : Task} {s t : System}

lemma System.call_eq {ra : BitVec 64} {f : System → Option System}
    (hf : f (s.on (·.push ra)) = some t) (hstack : t.stack = ra :: s.stack) :
    s.call ra f = some (t.on (·.drop)) := by
  have hhead : t.stack.head? = some ra := by
    rw [hstack, List.head?_cons]
  exact callOn_of_head hf hhead

/-- What `iretq` finds on the stack. -/
lemma iretq_eq {rip cs rflags rsp gap : BitVec 64} {stack : List (BitVec 64)}
    (h : s.stack = rip :: cs :: rflags :: rsp :: gap :: stack) :
    iretq s = some (s.resume rip rflags rsp stack) := by
  rw [iretq, h]

/-- The registers are popped, and the task goes on. -/
lemma Within.iretq (h : Within p s) : ∃ q, iretq (s.on (·.popAll)) = some q ∧ Resumed p q ∧
    q.keyboard = s.keyboard := by
  have hpop := Hart.popAll_eq h.stack
  rw [System.on, hpop]
  exact ⟨_, iretq_eq rfl, ⟨⟨rfl, rfl, rfl, rfl, rfl, rfl, rfl, rfl, rfl⟩, ⟨h.rbx, h.r12⟩, rfl, rfl,
    rfl, rfl, p.flags_df⟩, rfl⟩

/-- The first instructions, with the byte of the keyboard in `al`. -/
lemma within_enter (p : Task) : ∃ s, (p.enter.on (·.pushAll)).on (·.inAl 0x60) = s ∧ Within p s ∧
    s.rax.setWidth 8 = p.keyboard.byte ∧
    s.keyboard = { p.keyboard with bytes := p.keyboard.bytes.tail } := by
  have hon : p.enter.on (·.pushAll) =
      { p.enter with stack := p.saved, rsp := p.enter.rsp - 72 } := by
    rw [System.on, Hart.pushAll_eq]
    rfl
  rw [hon]
  exact ⟨_, rfl, ⟨rfl, rfl, rfl⟩, low8_setLow8 _ _, rfl⟩

/-- The call of the kernel, with the byte that has been read. -/
lemma Within.scan (h : Within p s) (kernel : Kernel) (ra left : BitVec 64) :
    ∃ t, (s.on fun h => (h.reserve left).movzxEdiAl).call ra (fun s => some (kernel.run s)) =
        some t ∧ Within p (t.on (·.drop)) ∧
      (t.on (·.drop)).keyboard =
        { s.keyboard with driver := tell s.keyboard.driver (s.rax.setWidth 8) } := by
  obtain ⟨u, hu⟩ : ∃ u, (s.on fun h => (h.reserve left).movzxEdiAl).on (·.push ra) = u := ⟨_, rfl⟩
  have hustack : u.stack = ra :: left :: s.stack := by
    rw [← hu]
    rfl
  have hdil : u.rdi.setWidth 8 = s.rax.setWidth 8 := by
    rw [← hu]
    change ((s.rax.setWidth 8).setWidth 64).setWidth 8 = s.rax.setWidth 8
    rw [BitVec.setWidth_setWidth_of_le _ (by decide), BitVec.setWidth_eq]
  have hrest : u.rbx = s.rbx ∧ u.r12 = s.r12 ∧ u.keyboard = s.keyboard := by
    rw [← hu]
    exact ⟨rfl, rfl, rfl⟩
  obtain ⟨hrbx, hr12, hstack⟩ := kernel.abi u
  obtain ⟨hlapic, hinp⟩ := kernel.devices u
  obtain ⟨hstate, hpub⟩ := kernel.scan u
  have hcall : (s.on fun h => (h.reserve left).movzxEdiAl).call ra (fun s => some (kernel.run s)) =
      some ((kernel.run u).on (·.drop)) :=
    System.call_eq (by rw [hu]) (hstack.trans hustack)
  refine ⟨(kernel.run u).on (·.drop), hcall, ⟨?_, ?_, ?_⟩, ?_⟩
  · change (kernel.run u).stack.tail.tail = _
    rw [hstack, hustack]
    exact h.stack
  · exact hrbx.trans (hrest.1.trans h.rbx)
  · exact hr12.trans (hrest.2.1.trans h.r12)
  · rw [← hrest.2.2, ← hdil]
    change Keyboard.mk ((kernel.run u).inp 0x60) (kernel.run u).lapic.eois
      ((kernel.run u).keybState, (kernel.run u).published) = _
    rw [hinp, hlapic, hstate, hpub]
    rfl

lemma Within.eoi (h : Within p s) (ra : BitVec 64) : ∃ t, s.call ra lapicEoi = some t ∧
    Within p t ∧ t.keyboard = { s.keyboard with ended := s.keyboard.ended + 1 } :=
  ⟨_, System.call_eq rfl rfl, ⟨h.stack, h.rbx, h.r12⟩, rfl⟩

end Interrupt

/-- An interrupt, from the first instruction to the return. -/
lemma interrupt_eq (kernel : Kernel) (behind : ℕ → BitVec 64) (left : BitVec 64) (p : Task) :
    ∃ q, interrupt kernel behind left p = some q ∧ Resumed p q ∧
      q.keyboard = p.keyboard.serve := by
  obtain ⟨s, hs, hwithin, hbyte, hkeyboard⟩ := within_enter p
  rw [interrupt, isrKeyboard, hs, hbyte]
  by_cases hans : isAnswer p.keyboard.byte = true
  · obtain ⟨t, ht, hwithin, hended⟩ := hwithin.eoi (behind 1)
    obtain ⟨q, hq, hresumed, hqkey⟩ := hwithin.iretq
    refine ⟨q, ?_, hresumed, ?_⟩
    · simp only [hans, if_true, Option.bind_eq_bind, Option.bind_some, ht, hq]
    · rw [hqkey, hended, hkeyboard, Keyboard.serve, if_pos hans]
  · obtain ⟨u, hu, hwithin, hscan⟩ := hwithin.scan kernel (behind 0) left
    obtain ⟨t, ht, hwithin, hended⟩ := hwithin.eoi (behind 1)
    obtain ⟨q, hq, hresumed, hqkey⟩ := hwithin.iretq
    refine ⟨q, ?_, hresumed, ?_⟩
    · simp only [hans, Bool.false_eq_true, if_false, Option.bind_eq_bind, Option.bind_some, hu, ht,
        hq]
    · rw [hqkey, hended, hscan, hbyte, hkeyboard, Keyboard.serve, if_neg hans]

/-- At the call of the kernel the stack is eight bytes off what the calling convention wants: it
has been right behind the nine pushes, and `sub rsp, 8` comes on top of them. -/
lemma toNat_rsp_scan (p : Task) (left : BitVec 64) :
    (p.enter.on fun h => ((h.pushAll.inAl 0x60).reserve left).movzxEdiAl).rsp.toNat % 16 = 8 := by
  have hrsp : (p.enter.on fun h => ((h.pushAll.inAl 0x60).reserve left).movzxEdiAl).rsp =
      (p.rsp &&& ~~~15) - 40 - 72 - 8 := by
    rw [System.on, Hart.pushAll_eq]
    rfl
  have hlow : (p.rsp &&& ~~~15) &&& 15 = 0 := by
    rw [BitVec.and_assoc]
    exact BitVec.and_zero
  have hmod : (p.rsp &&& ~~~15).toNat % 16 = 0 := by
    rw [← Nat.and_two_pow_sub_one_eq_mod _ 4]
    exact congrArg BitVec.toNat hlow
  rw [hrsp]
  bv_omega

/-! ### Runs -/

/-- A run of the program, behind the set-up of the keyboard, with `n` interrupts.  What the
program does has nothing to do with the keyboard, and ends no interrupts. -/
inductive Run (kernel : Kernel) (behind : ℕ → BitVec 64) (p : Task) : ℕ → Task → Prop
  | start : Run kernel behind p 0 p
  | program {n : ℕ} {q r : Task} (h : Run kernel behind p n q) (hr : r.keyboard = q.keyboard) :
    Run kernel behind p n r
  | keyboard {n : ℕ} {q r : Task} (left : BitVec 64) (h : Run kernel behind p n q)
    (hr : interrupt kernel behind left q = some r) : Run kernel behind p (n + 1) r

lemma Run.keyboard_eq {kernel : Kernel} {behind : ℕ → BitVec 64} {p q : Task} {n : ℕ}
    (h : Run kernel behind p n q) : q.keyboard = Keyboard.serve^[n] p.keyboard := by
  induction h with
  | start => rfl
  | program h hr ih => rw [hr, ih]
  | @keyboard n q r left h hr ih =>
    obtain ⟨t, ht, -, hserve⟩ := interrupt_eq kernel behind left q
    have hrt : r = t := Option.some.inj (hr.symm.trans ht)
    rw [hrt, hserve, ih, Function.iterate_succ_apply']

/-- **The keyboard, over a run.**  Whenever it interrupts, what was interrupted goes on as it
was.  Of the bytes one is read by each interrupt, each interrupt is ended once, and the driver is
told of the codes among the bytes, in their order. -/
theorem isrKeyboard_serves {kernel : Kernel} {behind : ℕ → BitVec 64} {p q : Task} {n : ℕ}
    (h : Run kernel behind p n q) :
    (∀ left, ∃ r, interrupt kernel behind left q = some r ∧ Resumed q r) ∧
      q.inp 0x60 = (p.inp 0x60).drop n ∧ q.lapic.eois = p.lapic.eois + n ∧
      (q.keybState, q.published) =
        ((((p.inp 0x60).take n).map (·.setWidth 8)).filter fun v => !isAnswer v).foldl tell
          (p.keybState, p.published) := by
  have hkeyboard := h.keyboard_eq.trans (Keyboard.iterate_serve p.keyboard n)
  refine ⟨fun left => ?_, congrArg Keyboard.bytes hkeyboard, congrArg Keyboard.ended hkeyboard,
    congrArg Keyboard.driver hkeyboard⟩
  obtain ⟨r, hr, hresumed, -⟩ := interrupt_eq kernel behind left q
  exact ⟨r, hr, hresumed⟩

/-- A kernel that leaves everything as it is, its driver apart. -/
def plainKernel : Kernel where
  run s := { s with keybState := (kernelOnKeybScan s.keybState (s.rdi.setWidth 8)).1
                    published := s.published ++
                      (kernelOnKeybScan s.keybState (s.rdi.setWidth 8)).2.toList }
  abi _ := ⟨rfl, rfl, rfl⟩
  devices _ := ⟨rfl, rfl⟩
  scan _ := ⟨rfl, rfl⟩

/-- The keyboard has understood a command, and then a key is released. -/
def idleTask : Task where
  toHart := { resetHart with inp := fun _ => Stream'.cons 0xFA (Stream'.const 0xF0) }
  keybState := 0
  published := []
  rip := 0x100000
  rflags := 0x202
  flags_df := rfl

theorem isrKeyboard_serves_release :
    ∃ q, Run plainKernel (fun _ => 0) idleTask 2 q ∧ q.lapic.eois = 2 ∧ q.keybState = kbKeyBreak ∧
      q.published = [] := by
  obtain ⟨r, hr, -⟩ := interrupt_eq plainKernel (fun _ => 0) 0 idleTask
  obtain ⟨q, hq, -⟩ := interrupt_eq plainKernel (fun _ => 0) 0 r
  have hrun : Run plainKernel (fun _ => 0) idleTask 2 q := .keyboard 0 (.keyboard 0 .start hr) hq
  obtain ⟨-, -, heois, hdriver⟩ := isrKeyboard_serves hrun
  exact ⟨q, hrun, heois, congrArg Prod.fst hdriver, congrArg Prod.snd hdriver⟩

end EvtDrivenOs.Irq
