/-
The set-up of the PS/2 controller and of the keyboard, `_ps2_controller` of `ps2.asm`.

The routine goes through as long as there is no byte in the output buffer when it starts.  A byte
that is there is taken for the configuration, the configuration is then left in the buffer, and
the flush, which reads the wrong port, does not come to an end.
-/
import EvtDrivenOs.Ps2

namespace EvtDrivenOs.Ps2

open EvtDrivenOs.Lib.X64

/-! ### The devices -/

/-- The keyboard, with no key pressed. -/
structure Keyboard where
  codeSet : BitVec 8
  scanning : Bool
  /-- The next byte is the number of a set. -/
  choosing : Bool

/-- A byte sent to the keyboard, with its answer. -/
def Keyboard.take (k : Keyboard) (v : BitVec 8) : Keyboard × List (BitVec 8) :=
  if k.choosing ∧ v.toNat < 4 then
    if v = 0 then (⟨k.codeSet, k.scanning, false⟩, [0xFA, k.codeSet])
    else (⟨v, k.scanning, false⟩, [0xFA])
  else if v = 0xFF then (⟨2, true, false⟩, [0xFA, 0xAA])
  else if v = 0xF5 then (⟨k.codeSet, false, false⟩, [0xFA])
  else if v = 0xF4 then (⟨k.codeSet, true, false⟩, [0xFA])
  else if v = 0xF0 then (⟨k.codeSet, k.scanning, true⟩, [0xFA])
  else (⟨k.codeSet, k.scanning, false⟩, [0xFE])

/-- The controller and the keyboard behind it. -/
structure Controller where
  /-- The bytes in the output buffer, the oldest first. -/
  pending : List (BitVec 8)
  cfg : BitVec 8
  /-- The next byte is the configuration. -/
  configuring : Bool
  keyboard : Keyboard
  /-- The codes of set 1 for those of set 2. -/
  translate : BitVec 8 → BitVec 8

namespace Controller

variable (c : Controller)

/-- A byte written to the command port. -/
def command (v : BitVec 8) : Controller :=
  if v = 0x20 then { c with pending := c.pending ++ [c.cfg], configuring := false }
  else if v = 0x60 then { c with configuring := true }
  else if v = 0xAD then { c with cfg := c.cfg ||| 0x10, configuring := false }
  else if v = 0xA7 then { c with cfg := c.cfg ||| 0x20, configuring := false }
  else if v = 0xAE then { c with cfg := c.cfg &&& ~~~0x10, configuring := false }
  else if v = 0xA8 then { c with cfg := c.cfg &&& ~~~0x20, configuring := false }
  else { c with configuring := false }

/-- A byte written to the data port. -/
def data (v : BitVec 8) : Controller :=
  if c.configuring then { c with cfg := v, configuring := false }
  else
    let answer := (c.keyboard.take v).2
    { c with
      pending := c.pending ++ if c.cfg.getLsbD 6 then answer.map c.translate else answer
      keyboard := (c.keyboard.take v).1 }

end Controller

/-- The processor and the controller. -/
structure Board where
  cpu : Machine
  dev : Controller

/-! ### The code -/

/-- `PS2_ST_IE_FLAG` -/
def ps2StIeFlag : BitVec 8 := 1 <<< 1

/-- `PS2_READ_CFG_BYTE` -/
def ps2ReadCfgByte : BitVec 8 := 0x20

/-- `PS2_WRITE_CFG_BYTE` -/
def ps2WriteCfgByte : BitVec 8 := 0x60

/-- `PS2_DISABLE_1ST_PORT` -/
def ps2Disable1stPort : BitVec 8 := 0xAD

/-- `PS2_DISABLE_2ND_PORT` -/
def ps2Disable2ndPort : BitVec 8 := 0xA7

/-- `PS2_ENABLE_1ST_PORT` -/
def ps2Enable1stPort : BitVec 8 := 0xAE

/-- `PS2_CFG_1ST_PORT_IRQ_ENABLE_FLAG` -/
def ps2Cfg1stPortIrqEnableFlag : BitVec 8 := 1 <<< 0

/-- `PS2_CFG_1ST_PORT_TRANSL_ENABLE_FLAG` -/
def ps2Cfg1stPortTranslEnableFlag : BitVec 8 := 1 <<< 6

/-- `PS2_KEYB_RST_SELFTEST` -/
def ps2KeybRstSelftest : BitVec 8 := 0xFF

/-- `PS2_KEYB_SCAN_CODESET` -/
def ps2KeybScanCodeset : BitVec 8 := 0xF0

/-- `PS2_KEYB_SCAN_ENABLE` -/
def ps2KeybScanEnable : BitVec 8 := 0xF4

/-- `PS2_KEYB_SCAN_DISABLE` -/
def ps2KeybScanDisable : BitVec 8 := 0xF5

namespace Board

variable (s : Board)

/-- An instruction of the processor alone. -/
def on (f : Machine → Machine) : Board := { s with cpu := f s.cpu }

/-- What the flush sees: the processor and the bytes in the buffer. -/
def host : Host := ⟨s.cpu, s.dev.pending⟩

/-- The machine behind the flush. -/
def withHost (h : Host) : Board := ⟨h.cpu, { s.dev with pending := h.pending }⟩

/-- `in al, port` -/
def inAl (port : BitVec 8) : Board := s.withHost (s.host.inAl port)

/-- `out port, al` -/
def outAl (port : BitVec 8) : Board where
  cpu := { s.cpu with log := s.cpu.log ++ [.out (port.setWidth 16) s.cpu.al] }
  dev :=
    if port = ps2CmdStPort then s.dev.command s.cpu.al
    else if port = ps2DataPort then s.dev.data s.cpu.al
    else s.dev

/-- `call` -/
def call (ra : BitVec 64) (f : Board → Option Board) : Option Board :=
  callOn (fun s v => s.on (·.push v)) (·.on (·.drop)) (·.cpu.stack) s ra f

/-- The second byte of `rax`. -/
def ah : BitVec 8 := s.cpu.rax.extractLsb' 8 8

/-- `mov ah, v`: the rest of `rax` stays. -/
def movAh (v : BitVec 8) : Board :=
  s.on fun m => { m with rax := m.rax.extractLsb' 16 48 ++ v ++ m.al }

end Board

/-- A loop that reads the status for as long as it says so. -/
def waitLoop (goes : BitVec 8 → Bool) : ℕ → Board → Option Board
  | 0, _ => none
  | fuel + 1, s =>
    let s := s.inAl ps2CmdStPort
    if goes s.cpu.al then waitLoop goes fuel s else some s

/-- The two waits: they read the status, and keep the registers. -/
def waiting (goes : BitVec 8 → Bool) (fuel : ℕ) (s : Board) : Option Board :=
  (waitLoop goes fuel (s.on fun m => m.push m.rax)).map (·.on (·.popRax))

/-- `wait_ps2_ie`: until the input buffer is empty. -/
def waitPs2Ie : ℕ → Board → Option Board := waiting fun v => v &&& ps2StIeFlag ≠ 0

/-- `wait_ps2_noe`: until there is a byte in the output buffer. -/
def waitPs2Noe : ℕ → Board → Option Board := waiting fun v => v &&& ps2StOeFlag = 0

section Routines

variable (behind : ℕ → BitVec 64) (fuel : ℕ)

/-- `al` goes to the command port when the controller takes it. -/
def sendPs2Command (s : Board) : Option Board := do
  let s ← s.call (behind 0) (waitPs2Ie fuel)
  some (s.outAl ps2CmdStPort)

/-- `al` goes to the data port when the controller takes it. -/
def sendPs2Data (s : Board) : Option Board := do
  let s ← s.call (behind 1) (waitPs2Ie fuel)
  some (s.outAl ps2DataPort)

/-- `al` gets the next byte of the data port when there is one. -/
def recvPs2Data (s : Board) : Option Board := do
  let s ← s.call (behind 2) (waitPs2Noe fuel)
  some (s.inAl ps2DataPort)

/-- `flush_ps2_data`, on this machine. -/
def flushPs2Data (s : Board) : Option Board := (s.host.flushPs2Data fuel).map s.withHost

/-- The `i`-th call, of `send_ps2_command` with `v`. -/
def command (i : ℕ) (v : BitVec 8) (s : Board) : Option Board :=
  (s.on (·.setAl v)).call (behind i) (sendPs2Command behind fuel)

/-- The `i`-th call, of `send_ps2_data` with `v`. -/
def send (i : ℕ) (v : BitVec 8) (s : Board) : Option Board :=
  (s.on (·.setAl v)).call (behind i) (sendPs2Data behind fuel)

/-- The `i`-th call, of `recv_ps2_data`. -/
def receive (i : ℕ) (s : Board) : Option Board := s.call (behind i) (recvPs2Data behind fuel)

/-- `ps2_present`: the configuration byte is asked for, and an answer read. -/
def ps2Present (s : Board) : Option Board := do
  let s := s.on fun m => { m with rax := 0 }
  let s ← command behind fuel 3 ps2ReadCfgByte s
  let s ← receive behind fuel 4 s
  some (s.on fun m => { m with rax := 1 })

/-- `_ps2_controller`, to the flush. -/
def disablePorts (s : Board) : Option Board := do
  let s ← s.call (behind 5) (ps2Present behind fuel)
  let s ← command behind fuel 6 ps2Disable1stPort s
  command behind fuel 7 ps2Disable2ndPort s

/-- The configuration. -/
def configure (s : Board) : Option Board := do
  let s ← command behind fuel 9 ps2ReadCfgByte s
  let s ← receive behind fuel 10 s
  let s := s.movAh s.cpu.al
  let s := s.movAh (s.ah ||| ps2Cfg1stPortIrqEnableFlag)
  let s := s.movAh (s.ah &&& ~~~ps2Cfg1stPortTranslEnableFlag)
  let s ← command behind fuel 11 ps2WriteCfgByte s
  let s ← send behind fuel 12 s.ah s
  command behind fuel 13 ps2Enable1stPort s

/-- The keyboard. -/
def startKeyboard (s : Board) : Option Board := do
  let s ← send behind fuel 14 ps2KeybRstSelftest s
  let s ← receive behind fuel 15 s
  let s ← receive behind fuel 16 s
  let s ← send behind fuel 17 ps2KeybScanDisable s
  let s ← receive behind fuel 18 s
  let s ← send behind fuel 19 ps2KeybScanCodeset s
  let s ← receive behind fuel 20 s
  let s ← send behind fuel 21 2 s
  let s ← receive behind fuel 22 s
  let s ← send behind fuel 23 ps2KeybScanEnable s
  receive behind fuel 24 s

/-- `_ps2_controller`, between its first and its last instruction. -/
def setUp (s : Board) : Option Board := do
  let s ← disablePorts behind fuel s
  let s ← s.call (behind 8) (flushPs2Data fuel)
  let s ← configure behind fuel s
  startKeyboard behind fuel s

/-- `_ps2_controller` -/
def ps2Controller (s : Board) : Option Board := do
  let s ← setUp behind fuel (s.on fun m => m.push m.rax)
  some (s.on (·.popRax))

end Routines

/-! ### What a routine leaves -/

/-- What is left as it was: everything but `rax`, the ports and what was written to them. -/
def rest (m : Machine) : Machine := { m with rax := 0, inp := fun _ => .const 0, log := [] }

lemma rest_push_drop (m : Machine) (v : BitVec 64) : (rest (m.push v)).drop = rest m := by
  simp only [rest, Machine.push, Machine.drop, List.tail_cons, BitVec.sub_add_cancel]

/-- The readings of the status. -/
def readings (m : Machine) : Stream' (BitVec 16) := m.inp (ps2CmdStPort.setWidth 16)

/-- Nothing but the readings of the status port has gone on. -/
structure Keeps (m n : Machine) : Prop where
  rest : rest n = rest m
  readings : ∃ k, readings n = (readings m).drop k

lemma Keeps.refl (m : Machine) : Keeps m m := ⟨rfl, 0, rfl⟩

lemma Keeps.trans {m n o : Machine} (h : Keeps m n) (h' : Keeps n o) : Keeps m o := by
  obtain ⟨k, hk⟩ := h.readings
  obtain ⟨l, hl⟩ := h'.readings
  refine ⟨h'.rest.trans h.rest, k + l, ?_⟩
  rw [hl, hk, Stream'.drop_drop, Nat.add_comm]

/-- Of any `fuel` readings of the status in a row one shows the input buffer empty. -/
def Idle (fuel : ℕ) (m : Machine) : Prop :=
  ∀ n, ∃ k < fuel, ((readings m).get (n + k)).setWidth 8 &&& ps2StIeFlag = 0

lemma Idle.keeps {fuel : ℕ} {m n : Machine} (h : Idle fuel m) (hk : Keeps m n) : Idle fuel n := by
  obtain ⟨l, hl⟩ := hk.readings
  intro i
  obtain ⟨k, hlt, hempty⟩ := h (l + i)
  refine ⟨k, hlt, ?_⟩
  rwa [hl, Stream'.get_drop, ← Nat.add_assoc]

/-- The routine returns, with these values of `rax` and of the controller. -/
def Leaves (s : Board) (r : Option Board) (rax : BitVec 64) (dev : Controller) : Prop :=
  ∃ t, r = some t ∧ Keeps s.cpu t.cpu ∧ t.cpu.rax = rax ∧ t.dev = dev

section Leaves

variable {s u : Board} {r : Option Board} {rax rax' : BitVec 64} {dev dev' : Controller}

lemma Leaves.bind {g : Board → Option Board} (h : Leaves s r rax dev)
    (hg : ∀ t, Keeps s.cpu t.cpu → t.cpu.rax = rax → t.dev = dev → Leaves t (g t) rax' dev') :
    Leaves s (r.bind g) rax' dev' := by
  obtain ⟨t, ht, hkeeps, hrax, hdev⟩ := h
  obtain ⟨t', ht', hkeeps', hrax', hdev'⟩ := hg t hkeeps hrax hdev
  exact ⟨t', by rw [ht, Option.bind_some, ht'], hkeeps.trans hkeeps', hrax', hdev'⟩

lemma Leaves.of_keeps (h : Leaves u r rax dev) (hu : Keeps s.cpu u.cpu) : Leaves s r rax dev := by
  obtain ⟨t, ht, hkeeps, hrax, hdev⟩ := h
  exact ⟨t, ht, hu.trans hkeeps, hrax, hdev⟩

lemma Leaves.call {f : Board → Option Board} {ra : BitVec 64}
    (h : Leaves (s.on (·.push ra)) (f (s.on (·.push ra))) rax dev) :
    Leaves s (s.call ra f) rax dev := by
  obtain ⟨t, ht, hkeeps, hrax, hdev⟩ := h
  have hstack : t.cpu.stack = ra :: s.cpu.stack := congrArg Machine.stack hkeeps.rest
  have hhead : t.cpu.stack.head? = some ra := by
    rw [hstack, List.head?_cons]
  refine ⟨t.on (·.drop), callOn_of_head ht hhead, ⟨?_, hkeeps.readings⟩, hrax, hdev⟩
  · have hdrop : rest t.cpu.drop = (rest t.cpu).drop := rfl
    exact hdrop.trans ((congrArg Machine.drop hkeeps.rest).trans (rest_push_drop s.cpu ra))

/-- `rax` is popped at the end when it has been pushed at the start. -/
lemma Leaves.popRax (hkeeps : Keeps (s.cpu.push s.cpu.rax) u.cpu) (hdev : u.dev = dev) :
    Leaves s (some (u.on (·.popRax))) s.cpu.rax dev := by
  have hstack : u.cpu.stack = s.cpu.rax :: s.cpu.stack := congrArg Machine.stack hkeeps.rest
  refine ⟨_, rfl, ⟨?_, hkeeps.readings⟩, ?_, hdev⟩
  · have hdrop : rest u.cpu.popRax = (rest u.cpu).drop := rfl
    exact hdrop.trans ((congrArg Machine.drop hkeeps.rest).trans (rest_push_drop s.cpu _))
  · change u.cpu.stack.headD 0 = s.cpu.rax
    rw [hstack, List.headD_cons]

end Leaves

/-! ### The waits -/

section Waits

variable {s : Board}

lemma inAl_status : (s.inAl ps2CmdStPort).dev = s.dev ∧
    (s.inAl ps2CmdStPort).cpu.al = status s.dev.pending ((readings s.cpu).head.setWidth 8) ∧
    Keeps s.cpu (s.inAl ps2CmdStPort).cpu ∧
    readings (s.inAl ps2CmdStPort).cpu = (readings s.cpu).tail := by
  have hcpu : s.inAl ps2CmdStPort = ⟨(s.cpu.eat (ps2CmdStPort.setWidth 16)).setAl
      (status s.dev.pending ((readings s.cpu).head.setWidth 8)), s.dev⟩ := by
    rw [Board.inAl, Host.inAl, if_pos rfl]
    rfl
  have htail : readings (s.inAl ps2CmdStPort).cpu = (readings s.cpu).tail := by
    rw [hcpu]
    change Function.update s.cpu.inp (ps2CmdStPort.setWidth 16) (readings s.cpu).tail
      (ps2CmdStPort.setWidth 16) = (readings s.cpu).tail
    exact Function.update_self ..
  refine ⟨by rw [hcpu], ?_, ⟨by rw [hcpu]; rfl, 1, ?_⟩, htail⟩
  · rw [hcpu]
    exact low8_setLow8 _ _
  · rw [htail]
    rfl

/-- The loop ends with the first reading that lets it. -/
lemma waitLoop_leaves {goes : BitVec 8 → Bool} {fuel k : ℕ} (hk : k < fuel)
    (hgo : goes (status s.dev.pending (((readings s.cpu).get k).setWidth 8)) = false) :
    ∃ t, waitLoop goes fuel s = some t ∧ Keeps s.cpu t.cpu ∧ t.dev = s.dev := by
  induction fuel generalizing s k with
  | zero => exact absurd hk (Nat.not_lt_zero k)
  | succ fuel ih =>
    obtain ⟨hdev, hal, hkeeps, htail⟩ := @inAl_status s
    rw [waitLoop]
    by_cases hnow : goes (s.inAl ps2CmdStPort).cpu.al = true
    · cases k with
      | zero =>
        rw [hal] at hnow
        exact absurd hnow (ne_true_of_eq_false hgo)
      | succ k =>
        obtain ⟨t, ht, hkeeps', hdev'⟩ := @ih (s.inAl ps2CmdStPort) k (Nat.lt_of_succ_lt_succ hk)
          (by rw [hdev, htail]; exact hgo)
        exact ⟨t, by simp only [hnow, if_true, ht], hkeeps.trans hkeeps', hdev'.trans hdev⟩
    · exact ⟨_, if_neg hnow, hkeeps, hdev⟩

lemma waiting_leaves {goes : BitVec 8 → Bool} {fuel k : ℕ} (hk : k < fuel)
    (hgo : goes (status s.dev.pending (((readings s.cpu).get k).setWidth 8)) = false) :
    Leaves s (waiting goes fuel s) s.cpu.rax s.dev := by
  obtain ⟨t, ht, hkeeps, hdev⟩ := @waitLoop_leaves (s.on fun m => m.push m.rax) goes fuel k hk hgo
  rw [waiting, ht, Option.map_some]
  exact Leaves.popRax hkeeps hdev

/-- The flag of the input buffer is not among those that the output buffer has to do with. -/
lemma status_ie (pending : List (BitVec 8)) (v : BitVec 8) :
    status pending v &&& ps2StIeFlag = v &&& ps2StIeFlag := by
  have hclear : ~~~ps2StOeFlag &&& ps2StIeFlag = ps2StIeFlag := by decide
  have hset : ps2StOeFlag &&& ps2StIeFlag = 0 := by decide
  rw [status]
  split_ifs
  · rw [BitVec.and_assoc, hclear]
  · rw [BitVec.and_or_distrib_right, hset]
    exact BitVec.or_zero

variable {fuel : ℕ} (hidle : Idle fuel s.cpu)
include hidle

lemma waitPs2Ie_leaves : Leaves s (waitPs2Ie fuel s) s.cpu.rax s.dev := by
  obtain ⟨k, hk, hempty⟩ := hidle 0
  rw [Nat.zero_add] at hempty
  exact waiting_leaves hk (by rw [status_ie, hempty]; rfl)

/-- A byte that is pending is seen at once. -/
lemma waitPs2Noe_leaves (hpending : s.dev.pending ≠ []) :
    Leaves s (waitPs2Noe fuel s) s.cpu.rax s.dev := by
  obtain ⟨k, hk, -⟩ := hidle 0
  refine waiting_leaves hk (decide_eq_false fun hzero => ?_)
  exact hpending ((status_and _ _).mp hzero)

end Waits

/-! ### Commands, and bytes to and from the keyboard -/

section Bytes

variable {behind : ℕ → BitVec 64} {fuel i : ℕ} {v : BitVec 8} {s : Board} (hidle : Idle fuel s.cpu)
include hidle

/-- A byte is written when the input buffer is empty. -/
lemma out_leaves (ra : BitVec 64) (port : BitVec 8) :
    Leaves s ((s.call ra (waitPs2Ie fuel)).bind fun s => some (s.outAl port)) s.cpu.rax
      (s.outAl port).dev := by
  have hwait : Leaves s (s.call ra (waitPs2Ie fuel)) s.cpu.rax s.dev :=
    Leaves.call (waitPs2Ie_leaves hidle)
  refine hwait.bind fun t _ hrax hdev => ⟨_, rfl, ⟨rfl, 0, rfl⟩, hrax, ?_⟩
  simp only [Board.outAl, Machine.al, hrax, hdev]

/-- The call of a routine that writes a byte. -/
lemma call_out {f : Board → Option Board} {ra ra' : BitVec 64} {port : BitVec 8}
    (hf : ∀ t, f t = (t.call ra' (waitPs2Ie fuel)).bind fun t => some (t.outAl port)) :
    Leaves s (s.call ra f) s.cpu.rax (s.outAl port).dev := by
  have hout := @out_leaves fuel (s.on (·.push ra)) hidle ra' port
  rw [← hf] at hout
  exact Leaves.call hout

lemma command_leaves : Leaves s (command behind fuel i v s) (setLow8 s.cpu.rax v)
    (s.dev.command v) := by
  have hout := @call_out fuel (s.on (·.setAl v)) hidle (sendPs2Command behind fuel) (behind i)
    (behind 0) ps2CmdStPort fun _ => rfl
  have hdev : ((s.on (·.setAl v)).outAl ps2CmdStPort).dev = s.dev.command v := by
    rw [Board.outAl, if_pos rfl]
    exact congrArg s.dev.command (low8_setLow8 _ _)
  rw [hdev] at hout
  exact hout.of_keeps ⟨rfl, 0, rfl⟩

lemma send_leaves : Leaves s (send behind fuel i v s) (setLow8 s.cpu.rax v) (s.dev.data v) := by
  have hout := @call_out fuel (s.on (·.setAl v)) hidle (sendPs2Data behind fuel) (behind i)
    (behind 1) ps2DataPort fun _ => rfl
  have hdev : ((s.on (·.setAl v)).outAl ps2DataPort).dev = s.dev.data v := by
    rw [Board.outAl, if_neg (by decide), if_pos rfl]
    exact congrArg s.dev.data (low8_setLow8 _ _)
  rw [hdev] at hout
  exact hout.of_keeps ⟨rfl, 0, rfl⟩

omit hidle in

/-- The data port gives the byte that has been pending longest. -/
lemma inAl_data {bs : List (BitVec 8)} (hpending : s.dev.pending = v :: bs) :
    Leaves s (some (s.inAl ps2DataPort)) (setLow8 s.cpu.rax v) { s.dev with pending := bs } := by
  have hcpu : s.inAl ps2DataPort = ⟨(s.cpu.eat (ps2DataPort.setWidth 16)).setAl v,
      { s.dev with pending := bs }⟩ := by
    rw [Board.inAl, Host.inAl, if_neg (by decide), if_pos rfl]
    simp only [Board.host, Board.withHost, hpending, List.headD_cons, List.tail_cons]
  refine ⟨_, rfl, ⟨by rw [hcpu]; rfl, 0, ?_⟩, by rw [hcpu]; rfl, by rw [hcpu]⟩
  rw [hcpu]
  have hports : ps2CmdStPort.setWidth 16 ≠ ps2DataPort.setWidth 16 := by decide
  change Function.update s.cpu.inp (ps2DataPort.setWidth 16)
    (s.cpu.inp (ps2DataPort.setWidth 16)).tail (ps2CmdStPort.setWidth 16) = readings s.cpu
  exact Function.update_of_ne hports ..

lemma receive_leaves {bs : List (BitVec 8)} (hpending : s.dev.pending = v :: bs) :
    Leaves s (receive behind fuel i s) (setLow8 s.cpu.rax v) { s.dev with pending := bs } := by
  have hne : s.dev.pending ≠ [] := by
    rw [hpending]
    exact List.cons_ne_nil v bs
  have hrecv : ∀ t : Board, Idle fuel t.cpu → t.dev = s.dev →
      Leaves t (recvPs2Data behind fuel t) (setLow8 t.cpu.rax v) { s.dev with pending := bs } := by
    intro t ht hdev
    have hwait : Leaves t (t.call (behind 2) (waitPs2Noe fuel)) t.cpu.rax t.dev :=
      Leaves.call (@waitPs2Noe_leaves (t.on (·.push (behind 2))) fuel ht (hdev ▸ hne))
    refine hwait.bind fun u _ hrax hu => ?_
    have hin := @inAl_data v u bs (by rw [hu, hdev, hpending])
    rw [hrax, hu, hdev] at hin
    exact hin
  exact Leaves.call (hrecv (s.on (·.push (behind i))) hidle rfl)

end Bytes

/-! ### The flush -/

section Flush

variable {fuel : ℕ} {s : Board}

lemma flush_leaves (hidle : Idle fuel s.cpu) (hpending : s.dev.pending = []) :
    Leaves s (flushPs2Data fuel s) s.cpu.rax s.dev := by
  obtain ⟨k, hk, -⟩ := hidle 0
  obtain ⟨n, rfl⟩ := Nat.exists_eq_succ_of_ne_zero (Nat.ne_zero_of_lt hk)
  have hloop : flushPs2Data (n + 1) s =
      some (((s.on fun m => m.push m.rax).inAl ps2CmdStPort).on (·.popRax)) := by
    rw [flushPs2Data, Host.flushPs2Data, Host.ps2DataFlushLoop_succ,
      if_pos (show s.host.pending = [] from hpending)]
    rfl
  obtain ⟨hdev, -, hkeeps, -⟩ := @inAl_status (s.on fun m => m.push m.rax)
  rw [hloop]
  exact Leaves.popRax hkeeps hdev

/-- With a byte in the buffer, the flush does not come to an end. -/
lemma flush_eq_none (hpending : s.dev.pending ≠ []) (fuel : ℕ) : flushPs2Data fuel s = none := by
  rw [flushPs2Data, Host.flushPs2Data, Host.ps2DataFlushLoop_other (by decide) hpending]
  rfl

end Flush

/-! ### The phases -/

/-- The routine returns, with this of the controller. -/
def Goes (fuel : ℕ) (s : Board) (r : Option Board) (dev : Controller) : Prop :=
  Idle fuel s.cpu → ∃ rax, Leaves s r rax dev

section Phases

variable {behind : ℕ → BitVec 64} {fuel i : ℕ} {v : BitVec 8} {s : Board} {r : Option Board}
  {d d' : Controller}

lemma Goes.bind {g : Board → Option Board} (h : Goes fuel s r d)
    (hg : ∀ t, t.dev = d → Goes fuel t (g t) d') : Goes fuel s (r.bind g) d' := by
  intro hidle
  obtain ⟨rax, t, rfl, hkeeps, -, hdev⟩ := h hidle
  obtain ⟨rax', t', ht', hkeeps', hrax', hdev'⟩ := hg t hdev (hidle.keeps hkeeps)
  exact ⟨rax', t', ht', hkeeps.trans hkeeps', hrax', hdev'⟩

lemma Goes.call {f : Board → Option Board} {ra : BitVec 64}
    (h : ∀ t, t.dev = s.dev → Goes fuel t (f t) d) : Goes fuel s (s.call ra f) d := by
  intro hidle
  obtain ⟨rax, hleaves⟩ := h (s.on (·.push ra)) rfl hidle
  exact ⟨rax, Leaves.call hleaves⟩

lemma goes_command (hdev : s.dev = d) :
    Goes fuel s (command behind fuel i v s) (d.command v) := by
  intro hidle
  exact ⟨_, hdev ▸ command_leaves hidle⟩

lemma goes_send (hdev : s.dev = d) : Goes fuel s (send behind fuel i v s) (d.data v) := by
  intro hidle
  exact ⟨_, hdev ▸ send_leaves hidle⟩

lemma goes_receive (hdev : s.dev = d) {bs : List (BitVec 8)} (hpending : d.pending = v :: bs) :
    Goes fuel s (receive behind fuel i s) { d with pending := bs } := by
  intro hidle
  subst hdev
  exact ⟨_, receive_leaves hidle hpending⟩

lemma Goes.of_keeps {u : Board} (h : Goes fuel u r d) (hu : Keeps s.cpu u.cpu) :
    Goes fuel s r d := by
  intro hidle
  obtain ⟨rax, hleaves⟩ := h (hidle.keeps hu)
  exact ⟨rax, hleaves.of_keeps hu⟩

lemma goes_on {f : Machine → Machine} (hf : Keeps s.cpu (f s.cpu)) (hdev : s.dev = d) :
    Goes fuel s (some (s.on f)) d := fun _ => ⟨_, _, rfl, hf, rfl, hdev⟩

variable {p : List (BitVec 8)} {c : BitVec 8} {cf : Bool} {k : Keyboard} {tr : BitVec 8 → BitVec 8}

/-- The controller looks like one that is present when there is a byte to read, be it the
configuration or not. -/
lemma goes_ps2Present (hdev : s.dev = ⟨p, c, cf, k, tr⟩) :
    Goes fuel s (ps2Present behind fuel s) ⟨(p ++ [c]).tail, c, false, k, tr⟩ := by
  obtain ⟨v, bs, hbytes⟩ := List.exists_cons_of_ne_nil (List.append_ne_nil_of_right_ne_nil p
    (List.cons_ne_nil c []))
  have hon : (s.on fun m => { m with rax := 0 }).dev = ⟨p, c, cf, k, tr⟩ := hdev
  refine Goes.of_keeps (u := s.on fun m => { m with rax := 0 }) ?_ ⟨rfl, 0, rfl⟩
  refine (goes_command hon).bind fun t ht => ?_
  have hpending : t.dev = ⟨v :: bs, c, false, k, tr⟩ := by
    rw [ht, ← hbytes]
    rfl
  refine (goes_receive hpending rfl).bind fun u hu => ?_
  rw [hbytes]
  exact goes_on ⟨rfl, 0, rfl⟩ hu

lemma goes_disablePorts (hdev : s.dev = ⟨p, c, cf, k, tr⟩) :
    Goes fuel s (disablePorts behind fuel s)
      ⟨(p ++ [c]).tail, c ||| 0x10 ||| 0x20, false, k, tr⟩ := by
  refine (Goes.call fun t ht => goes_ps2Present (ht.trans hdev)).bind fun t ht => ?_
  exact (goes_command ht).bind fun u hu => goes_command hu

lemma ah_movAh (s : Board) (v : BitVec 8) : (s.movAh v).ah = v := by
  apply BitVec.eq_of_getLsbD_eq
  intro i hi
  have hge : ¬ 8 + i < 8 := by omega
  have hsub : 8 + i - 8 = i := by omega
  simp only [Board.movAh, Board.ah, Board.on, BitVec.getLsbD_extractLsb', BitVec.getLsbD_append,
    hi, hge, hsub, if_true, if_false, decide_true, Bool.true_and]

/-- Writing the low byte leaves the second. -/
lemma ah_setLow8 {s : Board} {r : BitVec 64} {v : BitVec 8} (h : s.cpu.rax = setLow8 r v) :
    s.ah = r.extractLsb' 8 8 := by
  apply BitVec.eq_of_getLsbD_eq
  intro i hi
  have hge : ¬ 8 + i < 8 := by omega
  have hlt : 8 + i - 8 < 56 := by omega
  have hsum : 8 + (8 + i - 8) = 8 + i := by omega
  rw [Board.ah, h]
  simp only [setLow8, BitVec.getLsbD_extractLsb', BitVec.getLsbD_append, hi, hge, if_false, hlt,
    hsum, decide_true, Bool.true_and]

/-- As `Goes.bind`, with what is in `rax`. -/
lemma Goes.bind_leaves {g : Board → Option Board} {rax : BitVec 64}
    (h : Idle fuel s.cpu → Leaves s r rax d)
    (hg : ∀ t, t.cpu.rax = rax → t.dev = d → Goes fuel t (g t) d') : Goes fuel s (r.bind g) d' := by
  intro hidle
  obtain ⟨t, rfl, hkeeps, hrax, hdev⟩ := h hidle
  obtain ⟨rax', t', ht', hkeeps', hrax', hdev'⟩ := hg t hrax hdev (hidle.keeps hkeeps)
  exact ⟨rax', t', ht', hkeeps.trans hkeeps', hrax', hdev'⟩

/-- The flags are set and cleared in `ah`. -/
def flagged (s : Board) : Board :=
  let s := s.movAh s.cpu.al
  let s := s.movAh (s.ah ||| ps2Cfg1stPortIrqEnableFlag)
  s.movAh (s.ah &&& ~~~ps2Cfg1stPortTranslEnableFlag)

lemma ah_flagged (h : s.cpu.al = c) : (flagged s).ah = (c ||| 0x01) &&& ~~~0x40 := by
  rw [flagged, ah_movAh, ah_movAh, ah_movAh, h]
  rfl

lemma goes_configure (hdev : s.dev = ⟨[], c, cf, k, tr⟩) :
    Goes fuel s (configure behind fuel s)
      ⟨[], (c ||| 0x01) &&& ~~~0x40 &&& ~~~0x10, false, k, tr⟩ := by
  refine (goes_command hdev).bind fun t ht => ?_
  have hpending : t.dev.pending = [c] := congrArg Controller.pending ht
  refine Goes.bind_leaves (fun hidle => receive_leaves hidle hpending) fun u hrax hu => ?_
  have hal : u.cpu.al = c := by
    rw [Machine.al, hrax, low8_setLow8]
  have hdev' : (flagged u).dev = ⟨[], c, false, k, tr⟩ := by
    rw [ht] at hu
    exact hu
  refine Goes.of_keeps (u := flagged u) ?_ ⟨rfl, 0, rfl⟩
  refine Goes.bind_leaves (fun hidle => command_leaves hidle) fun w hrax hw => ?_
  have hah : w.ah = (c ||| 0x01) &&& ~~~0x40 := (ah_setLow8 hrax).trans (ah_flagged hal)
  have hw' : w.dev = ⟨[], c, true, k, tr⟩ := by
    rw [hdev'] at hw
    exact hw
  rw [hah]
  exact (goes_send hw').bind fun x hx => goes_command hx

/-! ### The keyboard -/

lemma goes_sendKeyboard (hc : c.getLsbD 6 = false) (hdev : s.dev = ⟨[], c, false, k, tr⟩) :
    Goes fuel s (send behind fuel i v s) ⟨(k.take v).2, c, false, (k.take v).1, tr⟩ := by
  have hdata : s.dev.data v = ⟨(k.take v).2, c, false, (k.take v).1, tr⟩ := by
    simp only [hdev, Controller.data, hc, if_false, List.nil_append, Bool.false_eq_true]
  rw [← hdata]
  exact goes_send rfl

lemma take_reset (k : Keyboard) :
    k.take ps2KeybRstSelftest = (⟨2, true, false⟩, [0xFA, 0xAA]) := by
  have hlarge : ¬ (k.choosing ∧ ps2KeybRstSelftest.toNat < 4) := fun h => absurd h.2 (by decide)
  rw [Keyboard.take, if_neg hlarge]
  rfl

lemma goes_startKeyboard (hc : c.getLsbD 6 = false) (hdev : s.dev = ⟨[], c, false, k, tr⟩) :
    Goes fuel s (startKeyboard behind fuel s) ⟨[], c, false, ⟨2, true, false⟩, tr⟩ := by
  refine (goes_sendKeyboard hc hdev).bind fun t ht => ?_
  rw [take_reset] at ht
  refine (goes_receive ht rfl).bind fun t ht => (goes_receive ht rfl).bind fun t ht => ?_
  refine (goes_sendKeyboard hc ht).bind fun t ht => (goes_receive ht rfl).bind fun t ht => ?_
  refine (goes_sendKeyboard hc ht).bind fun t ht => (goes_receive ht rfl).bind fun t ht => ?_
  refine (goes_sendKeyboard hc ht).bind fun t ht => (goes_receive ht rfl).bind fun t ht => ?_
  exact (goes_sendKeyboard hc ht).bind fun t ht => goes_receive ht rfl

/-! ### The whole -/

/-- What the configuration is in the end. -/
lemma cfg_eq (c : BitVec 8) :
    (c ||| 0x10 ||| 0x20 ||| 0x01) &&& ~~~0x40 &&& ~~~0x10 = (c ||| 0x21) &&& ~~~0x50 := by
  revert c
  decide

lemma goes_setUp (hdev : s.dev = ⟨[], c, cf, k, tr⟩) :
    Goes fuel s (setUp behind fuel s)
      ⟨[], (c ||| 0x21) &&& ~~~0x50, false, ⟨2, true, false⟩, tr⟩ := by
  refine (goes_disablePorts hdev).bind fun t ht => ?_
  have hflush : Goes fuel t (t.call (behind 8) (flushPs2Data fuel)) t.dev :=
    Goes.call fun u hu hidle => ⟨_, hu ▸ flush_leaves hidle (by rw [hu, ht]; rfl)⟩
  refine hflush.bind fun u hu => (goes_configure (hu.trans ht)).bind fun w hw => ?_
  rw [cfg_eq] at hw
  exact goes_startKeyboard (by simp) hw

/-- A byte that is pending is taken for the configuration, which is then left in the buffer, and
the flush of that does not come to an end. -/
lemma hangs_of_pending (hidle : Idle fuel s.cpu) {bs : List (BitVec 8)}
    (hpending : s.dev.pending = v :: bs) :
    ∃ t u, s.call (behind 5) (ps2Present behind fuel) = some t ∧
      t.dev.pending = bs ++ [s.dev.cfg] ∧ disablePorts behind fuel s = some u ∧
      u.dev.pending = bs ++ [s.dev.cfg] ∧
      ∀ n, u.call (behind 8) (flushPs2Data n) = none := by
  have hdev : s.dev = ⟨v :: bs, s.dev.cfg, s.dev.configuring, s.dev.keyboard, s.dev.translate⟩ := by
    rw [← hpending]
  have hpresent : Goes fuel s (s.call (behind 5) (ps2Present behind fuel))
      ⟨bs ++ [s.dev.cfg], s.dev.cfg, false, s.dev.keyboard, s.dev.translate⟩ :=
    Goes.call fun t ht => goes_ps2Present (ht.trans hdev)
  obtain ⟨-, t, ht, -, -, htdev⟩ := hpresent hidle
  have hports : Goes fuel s (disablePorts behind fuel s) _ := goes_disablePorts hdev
  obtain ⟨-, u, hu, -, -, hudev⟩ := hports hidle
  refine ⟨t, u, ht, by rw [htdev], hu, by rw [hudev]; rfl, fun n => ?_⟩
  have hleft : (u.on (·.push (behind 8))).dev.pending ≠ [] := by
    change u.dev.pending ≠ []
    rw [hudev]
    exact List.append_ne_nil_of_right_ne_nil bs (List.cons_ne_nil _ [])
  exact callOn_of_none (flush_eq_none hleft n)

end Phases

/-- **The set-up of the keyboard.**  It returns just if no byte is pending when it starts.  Then
the port of the keyboard is on, with its interrupt and without a translation, the other port is
off, the keyboard sends the codes of set 2, and no answer is left in the buffer.  A byte that is
pending is taken by `ps2_present`, the configuration stays in the buffer, and the flush never
ends. -/
theorem ps2Controller_returns_iff (behind : ℕ → BitVec 64) {fuel : ℕ} {s : Board}
    (hidle : Idle fuel s.cpu) :
    ((∃ t, ps2Controller behind fuel s = some t) ↔ s.dev.pending = []) ∧
      (∀ t, ps2Controller behind fuel s = some t →
        rest t.cpu = rest s.cpu ∧ t.cpu.rax = s.cpu.rax ∧
          t.dev = ⟨[], (s.dev.cfg ||| 0x21) &&& ~~~0x50, false, ⟨2, true, false⟩,
            s.dev.translate⟩) ∧
      ∀ v bs, s.dev.pending = v :: bs →
        ∃ t u, (s.on fun m => m.push m.rax).call (behind 5) (ps2Present behind fuel) = some t ∧
          t.dev.pending = bs ++ [s.dev.cfg] ∧
          disablePorts behind fuel (s.on fun m => m.push m.rax) = some u ∧
          u.dev.pending = bs ++ [s.dev.cfg] ∧
          ∀ n, u.call (behind 8) (flushPs2Data n) = none := by
  have hhangs : ∀ v bs, s.dev.pending = v :: bs → _ := fun v bs hpending =>
    @hangs_of_pending behind fuel v (s.on fun m => m.push m.rax) hidle bs hpending
  have hnone : s.dev.pending ≠ [] → ps2Controller behind fuel s = none := by
    intro hpending
    obtain ⟨v, bs, hbytes⟩ := List.exists_cons_of_ne_nil hpending
    obtain ⟨-, u, -, -, hu, -, hflush⟩ := hhangs v bs hbytes
    rw [ps2Controller, setUp, hu, Option.bind_eq_bind, Option.bind_some, hflush]
    rfl
  have hsome (hpending : s.dev.pending = []) : Leaves s (ps2Controller behind fuel s) s.cpu.rax
      ⟨[], (s.dev.cfg ||| 0x21) &&& ~~~0x50, false, ⟨2, true, false⟩, s.dev.translate⟩ := by
    have hdev : (s.on fun m => m.push m.rax).dev =
        ⟨[], s.dev.cfg, s.dev.configuring, s.dev.keyboard, s.dev.translate⟩ := by
      rw [← hpending]
      rfl
    obtain ⟨-, t, ht, hkeeps, -, hdev'⟩ := @goes_setUp behind fuel _ _ _ _ _ hdev hidle
    rw [ps2Controller, ht]
    exact Leaves.popRax hkeeps hdev'
  refine ⟨⟨?_, ?_⟩, ?_, hhangs⟩
  · rintro ⟨t, ht⟩
    by_contra hpending
    rw [hnone hpending] at ht
    cases ht
  · intro hpending
    obtain ⟨t, ht, -⟩ := hsome hpending
    exact ⟨t, ht⟩
  · intro t ht
    have hpending : s.dev.pending = [] := by
      by_contra hne
      rw [hnone hne] at ht
      cases ht
    obtain ⟨u, hu, hkeeps, hrax, hdev⟩ := hsome hpending
    obtain rfl : u = t := Option.some.inj (hu.symm.trans ht)
    exact ⟨hkeeps.rest, hrax, hdev⟩

/-- The configuration that the firmware leaves: a translation, and no interrupt. -/
def offBoard : Board where
  cpu := Host.acked.cpu
  dev := ⟨[], 0x64, false, ⟨1, false, false⟩, fun v => v⟩

theorem ps2Controller_returns_off :
    ∃ t, ps2Controller (fun _ => 0) 1 offBoard = some t ∧ t.dev.cfg = 0x25 ∧
      t.dev.keyboard.codeSet = 2 := by
  have hempty : BitVec.setWidth 8 (0 : BitVec 16) &&& ps2StIeFlag = 0 := by decide
  have hidle : Idle 1 offBoard.cpu := fun _ => ⟨0, Nat.zero_lt_one, hempty⟩
  obtain ⟨hiff, hafter, -⟩ := ps2Controller_returns_iff (fun _ => 0) hidle
  obtain ⟨t, ht⟩ := hiff.mpr rfl
  obtain ⟨-, -, hdev⟩ := hafter t ht
  exact ⟨t, ht, by rw [hdev]; rfl, by rw [hdev]⟩

end EvtDrivenOs.Ps2
