/-
The start of the kernel in 32-bit mode, `_start` of `main32.asm`.

The code checks what the boot loader has left and what the processor can do, sets up the page
tables and turns paging on.  The stack, the tables and the descriptors for the segments are in
one memory; from the moment paging is on, what the processor reads goes through the tables.
-/
import EvtDrivenOs.Boot
import Mathlib.Tactic.IntervalCases

namespace EvtDrivenOs.Boot

open EvtDrivenOs.Lib.Paging

/-! ### The processor -/

/-- What `cpuid` leaves in the registers. -/
structure Leaf where
  eax : BitVec 32
  ebx : BitVec 32
  ecx : BitVec 32
  edx : BitVec 32

/-- The bits that `pushfd` pushes as they are; for the others it pushes zeros. -/
def pushedFlags : BitVec 32 := 0x00FCFFFF

/-- The flag that `popfd` clears. -/
def resumeFlag : BitVec 32 := 0x00010000

/-- What a processor can do. -/
structure Features where
  /-- The flags that `popfd` can change. -/
  writable : BitVec 32
  writable_pushed : writable &&& pushedFlags = writable
  cpuid : BitVec 32 → Leaf

/-- Where the table of the descriptors is, and how far it reaches. -/
structure Gdtr where
  limit : ℕ
  base : ℕ

/-- What the processor has been told about itself: the control registers, the model specific
ones, the table of descriptors, and what the code segment is. -/
structure Settings where
  cr0 : BitVec 32
  cr3 : BitVec 32
  cr4 : BitVec 32
  msr : BitVec 32 → BitVec 64
  gdtr : Gdtr
  /-- The code segment is one of 64-bit code. -/
  code64 : Bool

/-- The registers and the memory.  Of the flags, those that instructions other than `popfd`
set are as these have left them; no decision of the code rests on them. -/
structure Cpu32 extends Machine32, Settings where
  ebx : BitVec 32
  esp : BitVec 32
  flags : BitVec 32

/-- Why the code does not reach its end. -/
inductive Stop
  | halted (s : Cpu32)
  | fault
  /-- The fuel is used up, or a return goes somewhere else. -/
  | astray

/-- A piece of the code: it goes on with a processor, or it has come to an end. -/
abbrev Code := Cpu32 → Except Stop Cpu32

/-- The register with the bits for long mode. -/
def efer : BitVec 32 := 0xC0000080

namespace Cpu32

/-- `push v` -/
def push (s : Cpu32) (v : BitVec 32) : Cpu32 :=
  { s with esp := s.esp - 4, mem := store32 s.mem (s.esp - 4).toNat v }

/-- What is on top of the stack. -/
def top (s : Cpu32) : BitVec 32 := BitVec.ofNat 32 (load32 s.mem s.esp.toNat)

/-- The stack pointer goes back over the top. -/
def dropTop (s : Cpu32) : Cpu32 := { s with esp := s.esp + 4 }

/-- `pop eax` -/
def popEax (s : Cpu32) : Cpu32 := { s.dropTop with eax := s.top }

/-- The flags are pushed, those that the instruction does not show as zeros. -/
def pushfd (s : Cpu32) : Cpu32 := s.push (s.flags &&& pushedFlags)

/-- The flags that can be changed are taken from the stack; the resume flag is cleared. -/
def popfd (cpu : Features) (s : Cpu32) : Cpu32 :=
  { s.dropTop with flags :=
      s.flags &&& ~~~(cpu.writable ||| resumeFlag) ||| s.top &&& cpu.writable }

/-- `mov ecx, eax` -/
def movEcxEax (s : Cpu32) : Cpu32 := { s with ecx := s.eax }

/-- `xor eax, v` -/
def xorEax (s : Cpu32) (v : BitVec 32) : Cpu32 := { s with eax := s.eax ^^^ v }

/-- The processor answers the question in `eax`. -/
def cpuid (cpu : Features) (s : Cpu32) : Cpu32 :=
  let l := cpu.cpuid s.eax
  { s with eax := l.eax, ebx := l.ebx, ecx := l.ecx, edx := l.edx }

/-- The model specific register that `ecx` names goes to `edx:eax`. -/
def rdmsr (s : Cpu32) : Cpu32 :=
  { s with eax := (s.msr s.ecx).setWidth 32, edx := (s.msr s.ecx).extractLsb' 32 32 }

/-- The model specific register that `ecx` names gets `edx:eax`. -/
def wrmsr (s : Cpu32) : Cpu32 :=
  { s with msr := fun r => if r = s.ecx then s.edx ++ s.eax else s.msr r }

/-- `mov cr0, eax`: paging needs protected mode, and turns long mode on if this has been
enabled, which needs wide page tables. -/
def loadCr0 (s : Cpu32) : Except Stop Cpu32 :=
  let long := (s.msr efer).getLsbD 8
  if s.eax.getLsbD 31 && (!s.eax.getLsbD 0 || long && !s.cr4.getLsbD 5) then .error .fault
  else if s.eax.getLsbD 31 && long then
    .ok { s with cr0 := s.eax
                 msr := fun r => if r = efer then s.msr efer ||| 1#64 <<< 10 else s.msr r }
  else .ok { s with cr0 := s.eax }

/-- The table that paging starts with. -/
def root (s : Cpu32) : ℕ := s.cr3.toNat / 4096 * 4096

/-- Where an address leads; `none` is a fault. -/
def translate (proc : Processor) (s : Cpu32) (v : ℕ) : Option Mapping := walk proc s.mem 4 s.root v

/-- `n` bytes at an address have pages. -/
def reaches (proc : Processor) (s : Cpu32) (a n : ℕ) : Bool :=
  (List.range n).all fun i => (s.translate proc (a + i)).isSome

/-- The memory as it is seen through the tables. -/
def view (proc : Processor) (s : Cpu32) : Mem := fun a =>
  (s.translate proc a).elim 0 fun p => s.mem p.phys

/-- `lgdt [a]` with paging on: two bytes for the limit, four for the base. -/
def lgdt (proc : Processor) (a : ℕ) (s : Cpu32) : Except Stop Cpu32 :=
  if s.reaches proc a 6 then
    .ok { s with gdtr :=
      { limit := load32 (s.view proc) a % 2 ^ 16, base := load32 (s.view proc) (a + 2) } }
  else .error .fault

/-- A jump to another segment reads the descriptor of this: one for code, present and of the
highest privilege. -/
def jmpFar (proc : Processor) (selector : ℕ) (s : Cpu32) : Except Stop Cpu32 :=
  let a := s.gdtr.base + selector
  if selector + 7 ≤ s.gdtr.limit ∧ s.reaches proc a 8 then
    let d := BitVec.ofNat 64 (load64 (s.view proc) a)
    if d.getLsbD 43 && d.getLsbD 44 && d.getLsbD 47 && !d.getLsbD 45 && !d.getLsbD 46 then
      -- 64-bit code is not 32-bit code at the same time
      if d.getLsbD 53 && d.getLsbD 54 then .error .fault
      else .ok { s with code64 := d.getLsbD 53 }
    else .error .fault
  else .error .fault

end Cpu32

/-- A call and the return from it, to what is then on the stack. -/
def call (ret : BitVec 32) (f : Code) : Code := fun s => do
  let s ← f (s.push ret)
  if s.top = ret then .ok s.dropTop else .error .astray

/-! ### The code -/

/-- Where the linker puts what the code uses: the stack, and the table of descriptors with the
pointer to it behind the two entries.  Everything is above the first megabyte. -/
structure Image extends PageTables where
  stackTop : ℕ
  gdt64 : ℕ
  /-- Where the calls return to. -/
  behind : ℕ → BitVec 32
  above : 0x100000 ≤ l4 ∧ 0x100000 + 16384 ≤ stackTop ∧ 0x100000 ≤ gdt64
  below : l4 + 3 * 4096 + 16 ≤ 0x40000000 ∧ stackTop ≤ 0x40000000 ∧ gdt64 + 26 ≤ 0x40000000
  stack_tables : stackTop ≤ l4 ∨ l4 + 3 * 4096 + 16 ≤ stackTop - 16384
  stack_gdt : stackTop ≤ gdt64 ∨ gdt64 + 26 ≤ stackTop - 16384
  tables_gdt : l4 + 3 * 4096 + 16 ≤ gdt64 ∨ gdt64 + 26 ≤ l4

/-- `.pointer`: the operand of `lgdt`, behind the two descriptors. -/
def Image.pointer (im : Image) : ℕ := im.gdt64 + 16

/-- `.code`: the offset of the descriptor of the code. -/
def codeSegment : ℕ := 8

/-- The letter for a processor without `cpuid`. -/
def NO_CPUID_CODE : BitVec 8 := 0x43 -- C

/-- The letter for a processor without a local APIC. -/
def NO_LAPIC_CODE : BitVec 8 := 0x41 -- A

/-- The letter for a loader that does not speak multiboot. -/
def NO_MULTIBOOT_CODE : BitVec 8 := 0x4D -- M

/-- The letter for a processor without long mode. -/
def NO_LONG_MODE_CODE : BitVec 8 := 0x4C -- L

/-- `mov al, c` and the jump to `error`. -/
def error (c : BitVec 8) : Code := fun s =>
  let s := { s with eax := (s.eax.extractLsb' 8 24 ++ c : BitVec 32) }
  let s := { s with edi := 0xb8000 }
  let s := { s with mem := store32 s.mem s.edi.toNat 0x4f524f45 }
  let s := { s with mem := store32 s.mem (s.edi + 4).toNat 0x4f3a4f52 }
  let s := { s with mem := store32 s.mem (s.edi + 8).toNat 0x4f204f20 }
  let s := { s with mem := fun x => if x = (s.edi + 10).toNat then s.eax.setWidth 8 else s.mem x }
  .error (.halted s)

/-- `eax` has the loader's magic number. -/
def checkMultiboot : Code := fun s =>
  if s.eax ≠ 0x36d76289 then error NO_MULTIBOOT_CODE s else .ok s

/-- `check_cpuid`, to the comparison: the flags in `eax` and those from before in `ecx`. -/
def flipId (cpu : Features) (s : Cpu32) : Cpu32 :=
  let s := s.pushfd.popEax.movEcxEax
  let s := s.xorEax (1#32 <<< 21) -- the bit for the instruction
  let s := (s.push s.eax).popfd cpu
  let s := s.pushfd.popEax
  (s.push s.ecx).popfd cpu -- the flags as they were

/-- The bit for `cpuid` in the flags can be changed. -/
def checkCpuid (cpu : Features) : Code := fun s =>
  let s := flipId cpu s
  if s.eax = s.ecx then error NO_CPUID_CODE s else .ok s

/-- The processor has a local APIC. -/
def checkLapic (cpu : Features) : Code := fun s =>
  let s := { s with eax := 1 }
  let s := s.cpuid cpu
  if s.edx &&& (1#32 <<< 9) = 0 then error NO_LAPIC_CODE s else .ok s

/-- The processor has the extended functions, and long mode is among them. -/
def checkLongMode (cpu : Features) : Code := fun s =>
  let s := { s with eax := 0x80000000 }
  let s := s.cpuid cpu
  if s.eax < 0x80000001 then error NO_LONG_MODE_CODE s
  else
    let s := { s with eax := 0x80000001 }
    let s := s.cpuid cpu
    if s.edx &&& (1#32 <<< 29) = 0 then error NO_LONG_MODE_CODE s else .ok s

/-- `setup_page_tables`, which uses no other registers. -/
def tables (im : Image) (fuel : ℕ) : Code := fun s =>
  match setupPageTables im.toPageTables fuel s.toMachine32 with
  | some t => .ok { s with toMachine32 := t }
  | none => .error .astray

/-- The tables are made known, then the wide entries, long mode and paging are turned on. -/
def enablePaging (im : Image) : Code := fun s =>
  let s := { s with eax := BitVec.ofNat 32 im.l4 }
  let s := { s with cr3 := s.eax }
  let s := { s with eax := s.cr4 }
  let s := { s with eax := s.eax ||| (1#32 <<< 5) } -- wide page tables
  let s := { s with cr4 := s.eax }
  let s := { s with ecx := efer }
  let s := s.rdmsr
  let s := { s with eax := s.eax ||| (1#32 <<< 8) } -- long mode
  let s := s.wrmsr
  let s := { s with eax := s.cr0 }
  let s := { s with eax := s.eax ||| (1#32 <<< 31) } -- paging
  s.loadCr0

/-- `_start`, to the jump into 64-bit code. -/
def start (proc : Processor) (cpu : Features) (im : Image) (fuel : ℕ) : Code := fun s => do
  let s := { s with esp := BitVec.ofNat 32 im.stackTop }
  let s ← call (im.behind 0) checkMultiboot s
  let s ← call (im.behind 1) (checkCpuid cpu) s
  let s ← call (im.behind 2) (checkLapic cpu) s
  let s ← call (im.behind 3) (checkLongMode cpu) s
  let s ← call (im.behind 4) (tables im fuel) s
  let s ← call (im.behind 5) (enablePaging im) s
  let s ← s.lgdt proc im.pointer
  s.jmpFar proc codeSegment

/-! ### The checks -/

/-- The settings of the processor are the same, the flags but for one that is cleared, and the
memory outside the bytes from `lo` to `hi`. -/
structure Intact (lo hi : ℕ) (s t : Cpu32) : Prop where
  esp : t.esp = s.esp
  flags : t.flags &&& ~~~resumeFlag = s.flags &&& ~~~resumeFlag
  settings : t.toSettings = s.toSettings
  mem : ∀ x, x < lo ∨ hi ≤ x → t.mem x = s.mem x

/-- The text at the start of the screen, white on red: `ERR: ` and the character. -/
def Shown (m : Mem) (c : BitVec 8) : Prop :=
  (List.range 6).map (fun i => m (0xb8000 + 2 * i)) = [0x45, 0x52, 0x52, 0x3A, 0x20, c] ∧
    ∀ i < 6, m (0xb8000 + 2 * i + 1) = 0x4f

/-- The processor has halted with the character on the screen, and its settings are those it
started with. -/
structure Refused (c : BitVec 8) (lo hi : ℕ) (s t : Cpu32) : Prop where
  text : Shown t.mem c
  settings : t.toSettings = s.toSettings
  mem : ∀ x, x < lo ∨ hi ≤ x → x < 0xb8000 ∨ 0xb800c ≤ x → t.mem x = s.mem x

lemma Intact.refl {lo hi : ℕ} (s : Cpu32) : Intact lo hi s s :=
  ⟨rfl, rfl, rfl, fun _ _ => rfl⟩

lemma Intact.trans {lo hi : ℕ} {s t u : Cpu32} (h : Intact lo hi s t) (h' : Intact lo hi t u) :
    Intact lo hi s u where
  esp := h'.esp.trans h.esp
  flags := h'.flags.trans h.flags
  settings := h'.settings.trans h.settings
  mem x hx := (h'.mem x hx).trans (h.mem x hx)

lemma Intact.cr0 {lo hi : ℕ} {s t : Cpu32} (h : Intact lo hi s t) : t.cr0 = s.cr0 :=
  congrArg Settings.cr0 h.settings

lemma Intact.cr4 {lo hi : ℕ} {s t : Cpu32} (h : Intact lo hi s t) : t.cr4 = s.cr4 :=
  congrArg Settings.cr4 h.settings

lemma Intact.msr {lo hi : ℕ} {s t : Cpu32} (h : Intact lo hi s t) : t.msr = s.msr :=
  congrArg Settings.msr h.settings

lemma Intact.refused {lo hi : ℕ} {c : BitVec 8} {s t u : Cpu32} (h : Intact lo hi s t)
    (h' : Refused c lo hi t u) : Refused c lo hi s u where
  text := h'.text
  settings := h'.settings.trans h.settings
  mem x hx hout := (h'.mem x hx hout).trans (h.mem x hx)

/-- What a check comes to: it passes, or it stops with its character. -/
def Checked (c : BitVec 8) (ok : Prop) (lo hi : ℕ) (s : Cpu32) (r : Except Stop Cpu32) : Prop :=
  (ok ∧ ∃ t, r = .ok t ∧ Intact lo hi s t) ∨
    (¬ ok ∧ ∃ t, r = .error (.halted t) ∧ Refused c lo hi s t)

section Calls

variable {s t : Cpu32} {a : ℕ}

lemma toNat_sub_four {e : BitVec 32} (he : e.toNat = a) (ha : 4 ≤ a) : (e - 4).toNat = a - 4 := by
  have hlt := e.isLt
  rw [BitVec.toNat_sub, show (4 : BitVec 32).toNat = 4 from rfl, he]
  omega

lemma push_esp_toNat (hs : s.esp.toNat = a) (ha : 4 ≤ a) (v : BitVec 32) :
    (s.push v).esp.toNat = a - 4 := by
  rw [Cpu32.push, toNat_sub_four hs ha]

lemma push_mem (hs : s.esp.toNat = a) (ha : 4 ≤ a) (v : BitVec 32) :
    (s.push v).mem = store32 s.mem (a - 4) v := by
  rw [← push_esp_toNat hs ha v]
  rfl

lemma push_top (s : Cpu32) (v : BitVec 32) : (s.push v).top = v := by
  rw [Cpu32.top, Cpu32.push, load32_store32, BitVec.ofNat_toNat, BitVec.setWidth_eq]

lemma push_esp (s : Cpu32) (v : BitVec 32) : (s.push v).esp + 4 = s.esp := by
  rw [Cpu32.push, BitVec.sub_add_cancel]

/-- What is called leaves the return address alone, so that the call ends behind itself. -/
lemma call_eq {f : Code} {ret : BitVec 32} (hs : s.esp.toNat = a) (ha : 4 ≤ a)
    (hf : f (s.push ret) = .ok t) (hesp : t.esp = (s.push ret).esp)
    (hmem : ∀ x, a - 4 ≤ x → x < a → t.mem x = (s.push ret).mem x) :
    call ret f s = .ok { t with esp := s.esp } := by
  have htop : t.top = ret := by
    rw [← push_top s ret, Cpu32.top, Cpu32.top, hesp, push_esp_toNat hs ha,
      load32_congr fun x hx hx' => hmem x hx (by omega)]
  have hdrop : t.dropTop = { t with esp := s.esp } := by
    rw [Cpu32.dropTop, hesp, push_esp]
  simp only [call, hf, bind, Except.bind, htop, if_true, hdrop]

lemma call_error {f : Code} {ret : BitVec 32} {e : Stop} (hf : f (s.push ret) = .error e) :
    call ret f s = .error e := by
  rw [call, hf]
  rfl

/-- A check that is called, from one that runs with the return address on the stack. -/
lemma Checked.call {c : BitVec 8} {ok : Prop} {f : Code} {ret : BitVec 32} {lo : ℕ}
    (hs : s.esp.toNat = a) (ha : 4 ≤ a) (hlo : lo ≤ a - 4)
    (h : Checked c ok lo (a - 4) (s.push ret) (f (s.push ret))) :
    Checked c ok lo a s (call ret f s) := by
  have hpush : ∀ x, x < lo ∨ a ≤ x → (s.push ret).mem x = s.mem x := by
    intro x hx
    rw [push_mem hs ha, store32_of_notMem (by omega)]
  rcases h with ⟨hok, t, ht, hi⟩ | ⟨hno, t, ht, hr⟩
  · refine .inl ⟨hok, _, call_eq hs ha ht hi.esp fun x hx _ => hi.mem x (.inr hx), rfl, hi.flags,
      hi.settings, ?_⟩
    intro x hx
    exact (hi.mem x (by omega)).trans (hpush x hx)
  · refine .inr ⟨hno, t, call_error ht, hr.text, hr.settings, ?_⟩
    intro x hx hout
    exact (hr.mem x (by omega) hout).trans (hpush x hx)

end Calls

/-! ### What each check finds -/

section Flags

variable {w c r b f : BitVec 32}

end Flags

section Cpuid

variable (cpu : Features) (s : Cpu32) (v : BitVec 32)

end Cpuid

/-! ### The tables and the mapping -/

/-- The bytes of the stack that the code uses. -/
def Image.bottom (im : Image) : ℕ := im.stackTop - 8

/-- The tables are set up in `m`, and what else it holds is as in `m₀`, but for the stack. -/
structure Paged (im : Image) (m₀ m : Mem) : Prop where
  tables : Tables im.toPageTables m m
  other : ∀ x, x < im.l4 ∨ im.mmio + 16 ≤ x → x < im.bottom ∨ im.stackTop ≤ x → m x = m₀ x

section Tables

variable {im : Image} {m₀ m : Mem}

/-- A store to the stack does not change the tables. -/
lemma Paged.store (h : Paged im m₀ m) {a : ℕ} (hlo : im.bottom ≤ a) (hhi : a + 4 ≤ im.stackTop)
    (v : BitVec 32) : Paged im m₀ (store32 m a v) := by
  have hsep := im.stack_tables
  have habove := im.above
  have hmmio : im.mmio = im.l4 + 3 * 4096 := rfl
  have hl3 : im.l3 = im.l4 + 4096 := rfl
  have hl2 : im.l2 = im.l4 + 2 * 4096 := rfl
  rw [Image.bottom] at hlo
  have hsame : ∀ x, im.l4 ≤ x → x + 8 ≤ im.mmio + 16 →
      load64 (store32 m a v) x = load64 m x := by
    intro x hx hx'
    apply load64_congr
    intro y hy hy'
    exact store32_of_notMem (by omega)
  refine ⟨⟨?_, ?_, ?_, ?_, fun _ _ => rfl⟩, ?_⟩
  · intro i hi
    rw [hsame _ (by omega) (by omega)]
    exact h.tables.l4 i hi
  · intro i hi
    rw [hsame _ (by omega) (by omega)]
    exact h.tables.l3 i hi
  · intro i hi
    rw [hsame _ (by omega) (by omega)]
    exact h.tables.l2 i hi
  · intro i hi
    rw [hsame _ (by omega) (by omega)]
    exact h.tables.mmio i hi
  · intro x hx hx'
    rw [Image.bottom] at hx'
    rw [store32_of_notMem (by omega)]
    exact h.other x hx (by rw [Image.bottom]; omega)

end Tables

section Paging

variable {im : Image} {s : Cpu32}

/-- The settings of long mode: paging with wide tables, of which the one of the highest level is
that of the kernel. -/
structure Enabled (im : Image) (s t : Cpu32) : Prop where
  cr0 : t.cr0 = s.cr0 ||| 1#32 <<< 31
  cr3 : t.cr3 = BitVec.ofNat 32 im.l4
  cr4 : t.cr4 = s.cr4 ||| 1#32 <<< 5
  msr : ∀ r, t.msr r = if r = efer then s.msr efer ||| 1#64 <<< 8 ||| 1#64 <<< 10 else s.msr r

/-- The processor before paging is turned on. -/
def ready (im : Image) (s : Cpu32) : Cpu32 :=
  { s with
    eax := s.cr0 ||| 1#32 <<< 31
    ecx := efer
    edx := (s.msr efer).extractLsb' 32 32
    cr3 := BitVec.ofNat 32 im.l4
    cr4 := s.cr4 ||| 1#32 <<< 5
    msr := fun r => if r = efer then s.msr efer ||| 1#64 <<< 8 else s.msr r }

end Paging

/-! ### The jump -/

section Jump

variable {proc : Processor} {im : Image} {m₀ : Mem} {s : Cpu32}

end Jump

/-! ### The start -/

/-- The processor runs 64-bit code, with the kernel and the registers of the interrupt
controllers mapped as `main32.asm` says; nothing else has changed. -/
structure Entered (proc : Processor) (im : Image) (s t : Cpu32) : Prop where
  active : (t.msr efer).getLsbD 10 = true
  code64 : t.code64 = true
  enabled : Enabled im s t
  esp : t.esp.toNat = im.stackTop
  flags : t.flags &&& ~~~resumeFlag = s.flags &&& ~~~resumeFlag
  maps : ∀ v, Canonical v → v < 0x40400000 ∨ 0x80000000 ≤ v →
    t.translate proc v = mapped v
  mem : ∀ x, x < im.l4 ∨ im.mmio + 16 ≤ x → x < im.bottom ∨ im.stackTop ≤ x → t.mem x = s.mem x

/-- A run with the check `failed` as the first to fail, if any does. -/
def Outcome (proc : Processor) (im : Image) (s : Cpu32) (failed : Option (BitVec 8))
    (r : Except Stop Cpu32) : Prop :=
  (failed = none ∧ ∃ t, r = .ok t ∧ Entered proc im s t) ∨
    ∃ c, failed = some c ∧ ∃ t, r = .error (.halted t) ∧ Refused c im.bottom im.stackTop s t

section Start

variable {proc : Processor} {cpu : Features} {im : Image} {s u : Cpu32} {fuel : ℕ}

end Start

/-! ### A start that succeeds -/

end EvtDrivenOs.Boot
