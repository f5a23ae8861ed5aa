/-
The routines of the IDE driver that program a controller and transfer sectors.

Every routine gives the state at its `ret`.  The comments name what the source's own
comments say of the registers; a routine's lemma says what it leaves behind.
-/
import EvtDrivenOs.Lib.X64

namespace EvtDrivenOs.Ide

open EvtDrivenOs.Lib.X64

/-! ### Constants -/

/-- The data port of the second bus. -/
def secondaryIdeDataRegPort : BitVec 64 := 0x170

/-- The bit in the device control register that keeps the bus from interrupting. -/
def ideControlDisableIrq : BitVec 8 := 1 <<< 1

/-- The offset of the register for the number of sectors. -/
def ideSectorCountReg : BitVec 16 := 2

/-- The offset of the register for the lowest byte of the sector. -/
def ideLbaLowReg : BitVec 16 := 3

/-- The offset of the register for the second byte of the sector. -/
def ideLbaMidReg : BitVec 16 := 4

/-- The offset of the register for the third byte of the sector. -/
def ideLbaHighReg : BitVec 16 := 5

/-- The offset of the register that selects the device and has the rest of the sector. -/
def ideDriveHeadReg : BitVec 16 := 6

/-- The offset of the register that is the status when read, the command when written. -/
def ideStatusCommandReg : BitVec 16 := 7

/-- The bit that selects the slave. -/
def ideDriveHeadSlave : BitVec 64 := 1 <<< 4

/-- The two bits that are always set. -/
def ideDriveHeadMagic : BitVec 64 := 1 <<< 7 ||| 1 <<< 5

/-- Sectors are counted, with no cylinders and heads. -/
def ideDriveHeadLbaMode : BitVec 64 := ideDriveHeadMagic ||| 1 <<< 6

/-- The device is at work. -/
def ideDeviceBusyFlag : BitVec 8 := 1 <<< 7

/-- The device has or wants data. -/
def ideDeviceDrqFlag : BitVec 8 := 1 <<< 3

/-- The last command failed, or the device has a fault. -/
def ideDeviceErrorFlag : BitVec 8 := 1 <<< 0 ||| 1 <<< 5

/-- The command that reads sectors. -/
def ideDeviceReadSectCmd : BitVec 8 := 0x20

/-- The command that writes sectors. -/
def ideDeviceWriteSectCmd : BitVec 8 := 0x30

/-! ### Registers of a controller -/

/-- `rdi` has the bus; `rdx` gets the data port. -/
def selectIdeController (s : Machine) : Option Machine :=
  let s := { s with rdx := secondaryIdeDataRegPort }
  if s.rdi ≠ 0 then some s
  else some { s with rdx := s.rdx + 0x80 }

/-- `dx` has the data port, `di` the register and `al` its value. -/
def writeIdeReg (s : Machine) : Option Machine :=
  let s := s.push s.rdx
  let s := s.setDx (s.dx + s.di)
  let s := s.outAl
  some s.popRdx

/-- Four readings of the alternate status, the delay of the specification. -/
def ideAtaSpecDelay (s : Machine) : Option Machine :=
  let s := s.push s.rax
  let s := s.push s.rcx
  let s := s.push s.rdx
  let s := s.setDx (s.dx + 0x206)
  let s := { s with rcx := 4 }
  let s := s.loop .inAl
  let s := s.popRdx
  let s := s.popRcx
  some s.popRax

/-- The bus in `dx` is kept from interrupting. -/
def ideDeviceDisableIrq (s : Machine) : Option Machine :=
  let s := s.push s.rax
  let s := s.push s.rdx
  let s := s.setDx (s.dx + 0x206)
  let s := s.setAl ideControlDisableIrq
  let s := s.outAl
  let s := s.popRdx
  some s.popRax

/-! ### Waiting for a device -/

/-- `.wait_not_busy_loop`, and with it `.wait_device_drq_err_loop`: the same instructions
under another label. -/
def waitNotBusyLoop : ℕ → Machine → Option Machine
  | 0, _ => none
  | fuel + 1, s =>
    let s := s.inAl
    if s.al &&& ideDeviceBusyFlag ≠ 0 then waitNotBusyLoop fuel s
    else if s.al &&& ideDeviceErrorFlag = 0 then some s
    else some (s.setBl 0)

/-- `al` gets 1 if the device is not busy, 0 if it has an error. -/
def waitIdeDeviceNotBusy (fuel : ℕ) (s : Machine) : Option Machine := do
  let s := s.push s.rdx
  let s := s.push s.rbx
  let s := s.setBl 1
  let s := s.setDx (s.dx + ideStatusCommandReg)
  let s ← waitNotBusyLoop fuel s
  let s := s.setAl s.bl
  let s := s.popRbx
  some s.popRdx

/-- The counted loop of a wait, which looks for `flag`; `rcx` has the number of polls left. -/
def waitFlagLoop (flag : BitVec 8) : ℕ → Machine → Option Machine
  | 0, _ => none
  | fuel + 1, s =>
    let s := s.inAl
    if s.al &&& ideDeviceBusyFlag = 0 ∧ s.al &&& flag ≠ 0 then some s
    else
      let s := s.decRcx
      if s.rcx ≠ 0 then waitFlagLoop flag fuel s
      else waitNotBusyLoop fuel s -- `.wait_ready_err_loop`, `.wait_device_drq_err_loop`

/-- `.wait_device_drq_loop` -/
def waitDeviceDrqLoop : ℕ → Machine → Option Machine := waitFlagLoop ideDeviceDrqFlag

/-- The body that `wait_ide_device_ready` and `wait_ide_device_drq` have in common. -/
def waitFlag (flag : BitVec 8) (polls : BitVec 64) (fuel : ℕ) (s : Machine) : Option Machine := do
  let s := s.push s.rdx
  let s := s.push s.rcx
  let s := s.push s.rbx
  let s := s.setBl 1
  let s := s.setDx (s.dx + ideStatusCommandReg)
  let s := { s with rcx := polls }
  let s ← waitFlagLoop flag fuel s
  let s := s.setAl s.bl
  let s := s.popRbx
  let s := s.popRcx
  some s.popRdx

/-- `al` gets 1 if the device requests data, 0 if it has an error. -/
def waitIdeDeviceDrq : ℕ → Machine → Option Machine := waitFlag ideDeviceDrqFlag 0xFFFF

/-! ### Transfers -/

/-- `rdi` has the bus, `rsi` the device, `rcx` the first sector and `r8` the number of
sectors; `rdx` gets the data port. -/
def ideDeviceSectorsIo (s : Machine) : Option Machine := do
  let s ← s.call 1 selectIdeController
  let s := { s with rax := s.rcx }
  let s := { s with rax := s.rax >>> 24 } -- top 4 bits
  let s := if s.rsi = 0 then s else { s with rax := s.rax ||| ideDriveHeadSlave }
  let s := { s with rax := s.rax ||| ideDriveHeadLbaMode }
  let s := s.setDi ideDriveHeadReg
  let s ← s.call 2 writeIdeReg
  let s ← s.call 3 ideAtaSpecDelay
  let s ← s.call 4 ideDeviceDisableIrq
  let s := { s with rax := s.r8 }
  let s := { s with rax := s.rax &&& 0xFF }
  let s := s.setDi ideSectorCountReg
  let s ← s.call 5 writeIdeReg
  let s := { s with rax := s.rcx }
  let s := s.setDi ideLbaLowReg
  let s ← s.call 6 writeIdeReg
  let s := { s with rax := s.rcx }
  let s := { s with rax := s.rax >>> 8 }
  let s := s.setDi ideLbaMidReg
  let s ← s.call 7 writeIdeReg
  let s := { s with rax := s.rcx }
  let s := { s with rax := s.rax >>> 16 }
  let s := s.setDi ideLbaHighReg
  let s ← s.call 8 writeIdeReg
  some { s with rax := 1 }

/-- `.ide_device_read_done` and `.ide_device_write_done` -/
def transferDone (s : Machine) : Option Machine :=
  let s := { s with rax := s.al.setWidth 64 }
  some s.popR12

/-- `.ide_device_read_nxt_sect` and `.ide_device_write_nxt_sect`; `sector` moves the words
of one sector, and `last` is what follows the last one. -/
def transferNxtSect (sector : Machine → Machine) (last : ℕ → Machine → Option Machine) :
    ℕ → Machine → Option Machine
  | 0, _ => none
  | fuel + 1, s => do
    let s := s.push s.rcx
    let s ← s.call 9 (waitIdeDeviceNotBusy fuel)
    if s.al = 0 then transferDone s
    else
      let s := sector s
      let s ← s.call 10 ideAtaSpecDelay
      let s := { s with r12 := s.r12 + 512 }
      let s := s.popRcx
      let s := s.decRcx
      if s.rcx ≠ 0 then transferNxtSect sector last fuel s
      else do
        let s ← last fuel s
        transferDone s

/-- The body that `_arch_ide_device_read` and `_arch_ide_device_write` have in common:
`rdi` has the bus, `rsi` the device, `rdx` the buffer, `rcx` the first sector and `r8` the
number of sectors. -/
def transfer (cmd : BitVec 8) (sector : Machine → Machine) (last : ℕ → Machine → Option Machine)
    (fuel : ℕ) (s : Machine) : Option Machine := do
  let s := s.push s.r12
  let s := { s with r12 := s.rdx }
  let s := { s with rax := 0 }
  let s ← s.call 11 ideDeviceSectorsIo
  if s.al = 0 then transferDone s
  else
    let s := s.setAl cmd
    let s := s.setDi ideStatusCommandReg
    let s ← s.call 12 writeIdeReg
    let s ← s.call 13 (waitIdeDeviceDrq fuel)
    if s.al = 0 then transferDone s
    else
      let s := { s with rcx := s.r8 }
      let s := if s.rcx ≠ 0 then s else { s with rcx := 256 }
      transferNxtSect sector last fuel s

/-- The words of one sector from the device to the buffer. -/
def readSector (s : Machine) : Machine :=
  let s := { s with df := false }
  let s := { s with rcx := 256 }
  let s := { s with rdi := s.r12 }
  s.repInsw

/-- The words of one sector from the buffer to the device. -/
def writeSector (s : Machine) : Machine :=
  let s := { s with df := false }
  let s := { s with rcx := 256 }
  let s := { s with rsi := s.r12 }
  s.loop .outsw

/-- `_arch_ide_device_read` -/
def archIdeDeviceRead : ℕ → Machine → Option Machine :=
  transfer ideDeviceReadSectCmd readSector fun _ s => some (s.setAl 1)

/-- `_arch_ide_device_write`, which waits once more after the last sector. -/
def archIdeDeviceWrite : ℕ → Machine → Option Machine :=
  transfer ideDeviceWriteSectCmd writeSector fun fuel s => s.call 14 (waitIdeDeviceNotBusy fuel)


/-! ### What the routines leave behind -/

/-- The data port of a bus. -/
def dataPort (bus : BitVec 64) : BitVec 64 := if bus = 0 then 0x1F0 else 0x170

lemma call_selectIdeController (s : Machine) (ra : BitVec 64) :
    s.call ra selectIdeController = some { s with rdx := dataPort s.rdi } := by
  by_cases h : s.rdi = 0
  · simp [Machine.call, callOn, selectIdeController, dataPort, h, secondaryIdeDataRegPort]
  · have h' : s.rdi ≠ 0#64 := h
    simp [Machine.call, callOn, selectIdeController, dataPort, h', secondaryIdeDataRegPort]

lemma call_writeIdeReg (s : Machine) (ra : BitVec 64) :
    s.call ra writeIdeReg = some { s with log := s.log ++ [.out (s.dx + s.di) s.al] } := by
  simp [Machine.call, callOn, writeIdeReg]

lemma call_ideDeviceDisableIrq (s : Machine) (ra : BitVec 64) :
    s.call ra ideDeviceDisableIrq =
      some { s with log := s.log ++ [.out (s.dx + 0x206) ideControlDisableIrq] } := by
  simp [Machine.call, callOn, ideDeviceDisableIrq]

lemma call_ideAtaSpecDelay (s : Machine) (ra : BitVec 64) :
    s.call ra ideAtaSpecDelay = some { s with
      inp := Function.update s.inp (s.dx + 0x206) ((s.inp (s.dx + 0x206)).drop 4) } := by
  simp [Machine.call, callOn, ideAtaSpecDelay, Machine.loop]
  rfl

/-- The drive and head register of a request. -/
def driveHead (device sector : BitVec 64) : BitVec 8 :=
  ((if device = 0 then sector >>> 24 else sector >>> 24 ||| ideDriveHeadSlave) |||
    ideDriveHeadLbaMode).setWidth 8

/-- The port of a register of the controller whose data port is `data`. -/
def regPort (data : BitVec 64) (reg : BitVec 16) : BitVec 16 := data.setWidth 16 + reg

/-- What `ide_device_sectors_io` programs. -/
def programmed (data device sector count : BitVec 64) : List Io :=
  [.out (regPort data ideDriveHeadReg) (driveHead device sector),
    .out (regPort data 0x206) ideControlDisableIrq,
    .out (regPort data ideSectorCountReg) (count.setWidth 8),
    .out (regPort data ideLbaLowReg) (sector.setWidth 8),
    .out (regPort data ideLbaMidReg) ((sector >>> 8).setWidth 8),
    .out (regPort data ideLbaHighReg) ((sector >>> 16).setWidth 8)]

lemma ideDeviceSectorsIo_eq (s : Machine) :
    ideDeviceSectorsIo s = some { s with
      rax := 1
      rdi := setLow16 s.rdi ideLbaHighReg
      rdx := dataPort s.rdi
      inp := Function.update s.inp (regPort (dataPort s.rdi) 0x206)
        ((s.inp (regPort (dataPort s.rdi) 0x206)).drop 4)
      log := s.log ++ programmed (dataPort s.rdi) s.rsi s.rcx s.r8 } := by
  have hcount (v : BitVec 8) : v &&& 255#8 = v := by
    rw [show 255#8 = BitVec.allOnes 8 from rfl, BitVec.and_allOnes]
  by_cases hd : s.rsi = 0#64
  · simp [ideDeviceSectorsIo, call_selectIdeController, call_writeIdeReg, call_ideAtaSpecDelay,
      call_ideDeviceDisableIrq, programmed, driveHead, regPort, hd, hcount]
  · simp [ideDeviceSectorsIo, call_selectIdeController, call_writeIdeReg, call_ideAtaSpecDelay,
      call_ideDeviceDisableIrq, programmed, driveHead, regPort, hd, hcount]

lemma call_ideDeviceSectorsIo (s : Machine) (ra : BitVec 64) :
    s.call ra ideDeviceSectorsIo = some { s with
      rax := 1
      rdi := setLow16 s.rdi ideLbaHighReg
      rdx := dataPort s.rdi
      inp := Function.update s.inp (regPort (dataPort s.rdi) 0x206)
        ((s.inp (regPort (dataPort s.rdi) 0x206)).drop 4)
      log := s.log ++ programmed (dataPort s.rdi) s.rsi s.rcx s.r8 } := by
  rw [Machine.call_of_eq (ideDeviceSectorsIo_eq _) rfl]
  simp

end EvtDrivenOs.Ide
