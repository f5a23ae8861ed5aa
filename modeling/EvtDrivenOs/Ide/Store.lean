/-
The disks of the IDE driver as stores of sectors, over whole runs.

Each controller hands what is written to its registers to two devices, of which one is
selected.  A device takes a command, moves the words of its sectors, and either carries the
command out or shows an error before the driver looks away.  Then no request mixes up two disks,
and what is read from a disk is what was last written there.
-/
import EvtDrivenOs.Ide.Content
import EvtDrivenOs.Lib.History

namespace EvtDrivenOs.Ide

open EvtDrivenOs.Lib EvtDrivenOs.Lib.X64
open EvtDrivenOs.Diskio (DiskStatus)

/-! ### The devices -/

/-- What the registers of a controller say. -/
structure Command where
  slave : Bool
  lbaMode : Bool
  lba : BitVec 28
  count : BitVec 8
  cmd : BitVec 8

namespace Command

/-- The first byte on the disk. -/
def start (c : Command) : ℕ := 512 * c.lba.toNat

/-- The number of bytes that the device moves. -/
def size (c : Command) : ℕ := 512 * denoted c.count

/-- The number of the device on a bus. -/
def place (bus : ℕ) (c : Command) : ℕ := 2 * bus + if c.slave then 1 else 0

end Command

/-- The command that the bytes written to the ports add up to. -/
def commandOf (data : BitVec 64) (io : List Io) : Option Command := do
  let head ← lastOut (regPort data ideDriveHeadReg) io
  let high ← lastOut (regPort data ideLbaHighReg) io
  let mid ← lastOut (regPort data ideLbaMidReg) io
  let low ← lastOut (regPort data ideLbaLowReg) io
  let count ← lastOut (regPort data ideSectorCountReg) io
  let cmd ← lastOut (regPort data ideStatusCommandReg) io
  some ⟨head.getLsbD 4, head.getLsbD 6, lba28 head high mid low, count, cmd⟩

/-- The words sent to a port. -/
def wordsOf (p : BitVec 16) (io : List Io) : List (BitVec 16) :=
  io.filterMap fun
    | .outw q v => if q = p then some v else none
    | _ => none

/-- The bytes of words, the low one first. -/
def bytesOf (ws : List (BitVec 16)) : List (BitVec 8) :=
  ws.flatMap fun w : BitVec 16 => [w.setWidth 8, (w >>> 8).setWidth 8]

/-- The selected device, whose disk contains `disk` before the command and `disk'` after it,
does what it is told, or it shows an error to one of the waits of the driver. -/
structure Performs (answers : BitVec 16 → Stream' (BitVec 16)) (data : BitVec 64) (c : Command)
    (io : List Io) (disk disk' : ℕ → BitVec 8) : Prop where
  outside : ∀ b, c.cmd ≠ ideDeviceWriteSectCmd ∨ b < c.start ∨ c.start + c.size ≤ b →
    disk' b = disk b
  write : c.lbaMode = true → c.cmd = ideDeviceWriteSectCmd →
    (wordsOf (data.setWidth 16) io).length = 256 * denoted c.count →
      disk' = store disk c.start (bytesOf (wordsOf (data.setWidth 16) io)) ∨
        ShowsError (denoted c.count + 1) (answers (regPort data ideStatusCommandReg))
  read : c.lbaMode = true → c.cmd = ideDeviceReadSectCmd →
    (∀ i < c.size, byteOf (answers (data.setWidth 16)) i = disk (c.start + i)) ∨
      ShowsError (denoted c.count) (answers (regPort data ideStatusCommandReg))

/-- What becomes of the two disks of a bus when `io` has been done: its controller takes what is
written to its own ports. -/
def BusServed (answers : BitVec 16 → Stream' (BitVec 16)) (bus : ℕ) (io : List Io)
    (disks disks' : ℕ → ℕ → BitVec 8) : Prop :=
  let data := dataPort (BitVec.ofNat 64 bus)
  match commandOf data io with
  | none => ∀ p, p / 2 = bus → disks' p = disks p
  | some c => (∀ p, p / 2 = bus → p ≠ c.place bus → disks' p = disks p) ∧
      Performs answers data c io (disks (c.place bus)) (disks' (c.place bus))

/-- What becomes of the disks: both controllers see all that is written to ports, and there are
four places. -/
structure Served (answers : BitVec 16 → Stream' (BitVec 16)) (io : List Io)
    (disks disks' : ℕ → ℕ → BitVec 8) : Prop where
  bus : ∀ bus < 2, BusServed answers bus io disks disks'
  beyond : ∀ p, 4 ≤ p → disks' p = disks p

/-! ### The system -/

/-- The processor, and the bytes of the disks. -/
structure World where
  cpu : Machine
  disks : ℕ → ℕ → BitVec 8

/-- The bytes of a memory from an address on. -/
def bytesAt (m : BitVec 64 → BitVec 8) (a : BitVec 64) (n : ℕ) : List (BitVec 8) :=
  (List.range n).map fun i => m (a + BitVec.ofNat 64 i)

/-- What happens in a run. -/
inductive Event where
  /-- The rest of the kernel runs, with the processor in this state at the end. -/
  | program (s : Machine)
  | read (buffer did blck blocks : BitVec 64) (res : DiskStatus)
  | write (buffer did blck blocks : BitVec 64) (res : DiskStatus)

/-- One step, with the accesses to the disks that its caller hears of. -/
inductive Step (detect : ℕ → ℕ → Detection) :
    World → Event → List (ℕ × Access (BitVec 8)) → World → Prop
  | program (w : World) {s : Machine} (hlog : s.log = w.cpu.log) :
      Step detect w (.program s) [] { w with cpu := s }
  | read {w : World} {disks' : ℕ → ℕ → BitVec 8} {r : DiskResult} {fuel : ℕ}
      {answers : BitVec 16 → Stream' (BitVec 16)} {buffer did blck blocks : BitVec 64}
      {io : List Io}
      (hreq : readDisk fuel (diskIo detect) { w.cpu with inp := answers } buffer did blck blocks =
        some r)
      (hio : r.machine.log = w.cpu.log ++ io)
      (hdisks : Served answers io w.disks disks') :
      Step detect w (.read buffer did blck blocks r.status)
        (if r.status = .ioOk then
          [(did.toNat, .read (512 * blck.toNat)
            (bytesAt r.machine.mem buffer (512 * blocks.toNat)))]
        else [])
        ⟨r.machine, disks'⟩
  | write {w : World} {disks' : ℕ → ℕ → BitVec 8} {r : DiskResult} {fuel : ℕ}
      {answers : BitVec 16 → Stream' (BitVec 16)} {buffer did blck blocks : BitVec 64}
      {io : List Io}
      (hreq : writeDisk fuel (diskIo detect) { w.cpu with inp := answers } buffer did blck blocks =
        some r)
      (hio : r.machine.log = w.cpu.log ++ io)
      (hdisks : Served answers io w.disks disks') :
      Step detect w (.write buffer did blck blocks r.status)
        [(did.toNat, if r.status = .ioOk then
          .wrote (512 * blck.toNat) (bytesAt w.cpu.mem buffer (512 * blocks.toNat))
        else .lost (512 * blck.toNat) (512 * blocks.toNat))]
        ⟨r.machine, disks'⟩

/-- A request fits the registers. -/
def Allowed : Event → Prop
  | .program _ => True
  | .read _ _ blck blocks _ => blck.toNat < 2 ^ 28 ∧ 1 ≤ blocks.toNat ∧ blocks.toNat ≤ 256
  | .write _ _ blck blocks _ => blck.toNat < 2 ^ 28 ∧ 1 ≤ blocks.toNat ∧ blocks.toNat ≤ 256

/-- A run, with the accesses that the callers hear of. -/
inductive Runs (detect : ℕ → ℕ → Detection) :
    World → List Event → List (ℕ × Access (BitVec 8)) → World → Prop
  | nil (w : World) : Runs detect w [] [] w
  | cons {w w' w'' : World} {e : Event} {es : List Event}
      {hist hist' : List (ℕ × Access (BitVec 8))} :
      Allowed e → Step detect w e hist w' → Runs detect w' es hist' w'' →
        Runs detect w (e :: es) (hist ++ hist') w''

/-- The accesses to one disk. -/
def histOf (p : ℕ) (hist : List (ℕ × Access (BitVec 8))) : List (Access (BitVec 8)) :=
  hist.filterMap fun e => if e.1 = p then some e.2 else none

/-! ### Words and bytes -/

lemma wordsOf_append (p : BitVec 16) (io io' : List Io) :
    wordsOf p (io ++ io') = wordsOf p io ++ wordsOf p io' := List.filterMap_append

lemma wordsOf_requested (data device blck blocks : BitVec 64) (cmd : BitVec 8) (p : BitVec 16) :
    wordsOf p (requested data device blck blocks cmd) = [] := rfl

lemma length_wordsOf_outws (p : BitVec 16) (m : BitVec 64 → BitVec 8) (a : BitVec 64) (n : ℕ) :
    (wordsOf p (outws p m a n)).length = n := by
  induction n with
  | zero => rfl
  | succ n ih =>
    have hone : (wordsOf p (outws p m (a + BitVec.ofNat 64 (2 * n)) 1)).length = 1 := by
      simp [outws, wordsOf]
    rw [outws_add, wordsOf_append, List.length_append, ih, hone]

/-- The words of the memory are its bytes. -/
lemma bytesOf_outws (p : BitVec 16) (m : BitVec 64 → BitVec 8) (a : BitVec 64) (n : ℕ) :
    bytesOf (wordsOf p (outws p m a n)) = bytesAt m a (2 * n) := by
  have hlow (hi lo : BitVec 8) : (hi ++ lo : BitVec 16).setWidth 8 = lo := by
    apply BitVec.eq_of_getLsbD_eq
    intro i hi
    simp only [BitVec.getLsbD_setWidth, BitVec.getLsbD_append, hi]
    simp
  have hhigh (hi lo : BitVec 8) : ((hi ++ lo : BitVec 16) >>> 8).setWidth 8 = hi := by
    apply BitVec.eq_of_getLsbD_eq
    intro i hi
    simp only [BitVec.getLsbD_setWidth, BitVec.getLsbD_ushiftRight, BitVec.getLsbD_append, hi]
    simp
  induction n with
  | zero => rfl
  | succ n ih =>
    have hone : bytesOf (wordsOf p (outws p m (a + BitVec.ofNat 64 (2 * n)) 1)) =
        [m (a + BitVec.ofNat 64 (2 * n)), m (a + BitVec.ofNat 64 (2 * n) + 1)] := by
      simp [outws, wordsOf, bytesOf, hlow, hhigh]
    have happend : bytesOf (wordsOf p (outws p m a n) ++
        wordsOf p (outws p m (a + BitVec.ofNat 64 (2 * n)) 1)) =
          bytesOf (wordsOf p (outws p m a n)) ++
            bytesOf (wordsOf p (outws p m (a + BitVec.ofNat 64 (2 * n)) 1)) :=
      List.flatMap_append
    have hnext : a + BitVec.ofNat 64 (2 * n + 1) = a + BitVec.ofNat 64 (2 * n) + 1 := by
      rw [BitVec.add_assoc, BitVec.ofNat_add]
      rfl
    rw [outws_add, wordsOf_append, happend, ih, hone]
    simp only [bytesAt, Nat.mul_succ, List.range_succ, List.map_append, List.map_cons,
      List.map_nil, hnext, List.append_assoc, List.cons_append, List.nil_append]

/-! ### The command of a request -/

/-- The command that a request for `blocks` blocks of entry `did` from `blck` on sends. -/
def commandFor (did : ℕ) (blck blocks : BitVec 64) (cmd : BitVec 8) : Command where
  slave := did % 2 = 1
  lbaMode := true
  lba := blck.setWidth 28
  count := blocks.setWidth 8
  cmd := cmd

variable {did : ℕ} {blck blocks : BitVec 64} {cmd : BitVec 8}

lemma place_commandFor : (commandFor did blck blocks cmd).place (did / 2) = did := by
  simp only [Command.place, commandFor, decide_eq_true_eq]
  split <;> omega

lemma start_commandFor (hblck : blck.toNat < 2 ^ 28) :
    (commandFor did blck blocks cmd).start = 512 * blck.toNat := by
  rw [Command.start, commandFor, BitVec.toNat_setWidth, Nat.mod_eq_of_lt hblck]

lemma size_commandFor (h1 : 1 ≤ blocks.toNat) (h2 : blocks.toNat ≤ 256) :
    (commandFor did blck blocks cmd).size = 512 * blocks.toNat := by
  rw [Command.size, commandFor, denoted_setWidth h1 h2]

/-- The controller makes of the registers what the driver meant. -/
lemma commandOf_requested {data device : BitVec 64} {ws : List Io}
    (hdev : device = BitVec.ofNat 64 (did % 2)) (hblck : blck.toNat < 2 ^ 28)
    (hws : ∀ w ∈ ws, w.IsWord (data.setWidth 16)) :
    commandOf data (requested data device blck blocks cmd ++ ws) =
      some (commandFor did blck blocks cmd) := by
  obtain ⟨hhead, hhigh, hmid, hlow, hcount⟩ := lastOut_programmed data device blck blocks cmd hws
  obtain ⟨hslave, hlba⟩ := @driveHead_bits device _ hblck
  have hcmd : lastOut (regPort data ideStatusCommandReg)
      (requested data device blck blocks cmd ++ ws) = some cmd := by
    rw [lastOut_append, lastOut_words hws, requested, lastOut_append]
    simp [lastOut]
  have hdevice : (driveHead device blck).getLsbD 4 = decide (did % 2 = 1) := by
    rw [Bool.eq_iff_iff, hslave, decide_eq_true_eq, hdev]
    rcases Nat.mod_two_eq_zero_or_one did with h | h <;> simp [h]
  simp only [commandOf, hhead, hhigh, hmid, hlow, hcount, hcmd, Option.bind_eq_bind,
    Option.bind_some, lba28_driveHead, hdevice, hlba, commandFor]

/-- The other controller gets no command: a request writes to the ports of its own bus alone. -/
lemma commandOf_other {bus bus' : ℕ} (hbus : bus < 2) (hbus' : bus' < 2) (hne : bus' ≠ bus)
    (device : BitVec 64) {ws : List Io}
    (hws : ∀ w ∈ ws, w.IsWord ((dataPort (BitVec.ofNat 64 bus)).setWidth 16)) :
    commandOf (dataPort (BitVec.ofNat 64 bus'))
      (requested (dataPort (BitVec.ofNat 64 bus)) device blck blocks cmd ++ ws) = none := by
  have hhead : lastOut (regPort (dataPort (BitVec.ofNat 64 bus')) ideDriveHeadReg)
      (requested (dataPort (BitVec.ofNat 64 bus)) device blck blocks cmd) = none := by
    have hcases : bus = 0 ∧ bus' = 1 ∨ bus = 1 ∧ bus' = 0 := by omega
    rcases hcases with ⟨rfl, rfl⟩ | ⟨rfl, rfl⟩
    all_goals
      simp [requested, programmed, lastOut, regPort, dataPort, ideDriveHeadReg, ideLbaHighReg,
        ideLbaMidReg, ideLbaLowReg, ideSectorCountReg, ideStatusCommandReg]
  rw [commandOf, lastOut_append, lastOut_words hws, Option.none_or, hhead]
  rfl

/-- A request is refused without an access to a device, or a transfer is run. -/
lemma ioDisk_cases {io : ℕ → Machine → Option Machine} {failed : String} {fuel : ℕ}
    {detect : ℕ → ℕ → Detection} {s : Machine} {buffer did : BitVec 64} {r : DiskResult}
    (h : ioDisk io failed fuel (diskIo detect) s buffer did blck blocks = some r) :
    r.status ≠ .ioOk ∧ r.machine = s ∨
      ∃ dev t, (diskIo detect)[did.toNat]? = some dev ∧
        io fuel ((argsOf s dev buffer blck blocks).push 15) = some t ∧ r.machine = t.drop ∧
          (r.status = .ioOk ↔ t.al ≠ 0) := by
  rw [ioDisk] at h
  split at h
  · cases h
    exact .inl ⟨by rintro ⟨⟩, rfl⟩
  obtain ⟨dev, hdev, h⟩ := Option.bind_eq_some_iff.mp h
  split at h
  · cases h
    exact .inl ⟨by rintro ⟨⟩, rfl⟩
  obtain ⟨u, hu, h⟩ := Option.bind_eq_some_iff.mp h
  obtain ⟨t, ht, rfl⟩ := Machine.of_call_eq_some hu
  refine .inr ⟨dev, t, hdev, ht, ?_⟩
  split at h
  case isTrue hal =>
    cases h
    exact ⟨rfl, iff_of_true rfl hal⟩
  case isFalse hal =>
    cases h
    exact ⟨rfl, iff_of_false (by rintro ⟨⟩) hal⟩

/-! ### The steps -/

/-- What a step gives: each disk obeys what is heard of it. -/
def Follows (w w' : World) (hist : List (ℕ × Access (BitVec 8))) : Prop :=
  ∀ p, Access.ObeysAll (w.disks p) (histOf p hist) (w'.disks p)

lemma follows_nil {w w' : World} (h : w'.disks = w.disks) : Follows w w' [] := by
  intro p
  rw [h]
  exact .nil _

/-- One access to the disk `did`. -/
lemma follows_one {w w' : World} {a : Access (BitVec 8)}
    (hother : ∀ p, p ≠ did → w'.disks p = w.disks p)
    (hobeys : Access.Obeys (w.disks did) a (w'.disks did)) : Follows w w' [(did, a)] := by
  intro p
  by_cases hp : p = did
  · subst hp
    have hist : histOf p [(p, a)] = [a] := by simp [histOf]
    rw [hist]
    exact .cons hobeys (.nil _)
  · have hist : histOf p [(did, a)] = [] := by simp [histOf, Ne.symm hp]
    rw [hist, hother p hp]
    exact .nil _

section Buses

variable {answers : BitVec 16 → Stream' (BitVec 16)} {bus : ℕ} {io : List Io}
  {disks disks' : ℕ → ℕ → BitVec 8}

lemma busServed_none (h : commandOf (dataPort (BitVec.ofNat 64 bus)) io = none) :
    BusServed answers bus io disks disks' ↔ ∀ p, p / 2 = bus → disks' p = disks p := by
  simp only [BusServed, h]

lemma busServed_some {c : Command} (h : commandOf (dataPort (BitVec.ofNat 64 bus)) io = some c) :
    BusServed answers bus io disks disks' ↔
      (∀ p, p / 2 = bus → p ≠ c.place bus → disks' p = disks p) ∧
        Performs answers (dataPort (BitVec.ofNat 64 bus)) c io (disks (c.place bus))
          (disks' (c.place bus)) := by
  simp only [BusServed, h]

end Buses

/-- What a request that has run a transfer has done to the disks. -/
lemma served_of_transfer {sector : Machine → Machine} {last : ℕ → Machine → Option Machine}
    (hsec : ∀ s, Moved 256 s (sector s)) (hlast : OnlyAnswers last) {detect : ℕ → ℕ → Detection}
    {dev : IdeDev} {answers : BitVec 16 → Stream' (BitVec 16)} {s t : Machine}
    {buffer : BitVec 64} {io : List Io} {disks disks' : ℕ → ℕ → BitVec 8} {fuel : ℕ}
    (hdev : (diskIo detect)[did]? = some dev)
    (ht : transfer cmd sector last fuel ((argsOf s dev buffer blck blocks).push 15) = some t)
    (hio : t.log = s.log ++ io) (hblck : blck.toNat < 2 ^ 28)
    (hdisks : Served answers io disks disks') :
    (∀ p, p ≠ did → disks' p = disks p) ∧
      Performs answers (dataPort (dev.ideBus.setWidth 64)) (commandFor did blck blocks cmd) io
        (disks did) (disks' did) := by
  obtain ⟨hlt, hbus, hdevice⟩ := place_of_diskIo hdev
  obtain ⟨ws, hlog, hws⟩ := transfer_words hsec hlast ht
  obtain rfl := List.append_cancel_left (hio.symm.trans hlog)
  have hlt' : did / 2 < 2 := by omega
  have hcommand := @commandOf_requested did blck blocks cmd _ _ ws hdevice hblck hws
  simp only [argsOf, Machine.push, hbus] at hcommand hdisks hws ⊢
  have hown := (busServed_some hcommand).mp (hdisks.bus (did / 2) hlt')
  rw [place_commandFor] at hown
  refine ⟨fun p hp => ?_, hown.2⟩
  by_cases hplace : p < 4
  · by_cases hsame : p / 2 = did / 2
    · exact hown.1 p hsame hp
    · have hlt'' : p / 2 < 2 := by omega
      have hnone := @commandOf_other blck blocks cmd _ _ hlt' hlt'' hsame
        (dev.busDev.setWidth 64) ws hws
      exact (busServed_none hnone).mp (hdisks.bus (p / 2) hlt'') p rfl
  · exact hdisks.beyond p (Nat.le_of_not_lt hplace)

/-- Nothing was written to the ports, so nothing has become of the disks. -/
lemma served_nil {answers : BitVec 16 → Stream' (BitVec 16)} {disks disks' : ℕ → ℕ → BitVec 8}
    (h : Served answers [] disks disks') : disks' = disks := by
  funext p
  by_cases hp : p < 4
  · exact h.bus (p / 2) (by omega) p rfl
  · exact h.beyond p (Nat.le_of_not_lt hp)

lemma sectors_eq (h1 : 1 ≤ blocks.toNat) : sectors blocks = blocks.toNat := by
  rw [sectors, if_neg]
  rintro rfl
  exact absurd h1 (by decide)

section Requests

variable {detect : ℕ → ℕ → Detection} {w : World} {disks' : ℕ → ℕ → BitVec 8} {r : DiskResult}
  {fuel : ℕ} {answers : BitVec 16 → Stream' (BitVec 16)} {buffer did : BitVec 64} {io : List Io}

lemma follows_read (hblck : blck.toNat < 2 ^ 28) (h1 : 1 ≤ blocks.toNat) (h2 : blocks.toNat ≤ 256)
    (hreq : readDisk fuel (diskIo detect) { w.cpu with inp := answers } buffer did blck blocks =
      some r)
    (hio : r.machine.log = w.cpu.log ++ io)
    (hdisks : Served answers io w.disks disks') :
    Follows w ⟨r.machine, disks'⟩
      (if r.status = .ioOk then
        [(did.toNat, .read (512 * blck.toNat) (bytesAt r.machine.mem buffer (512 * blocks.toNat)))]
      else []) := by
  rcases ioDisk_cases hreq with ⟨hstatus, hmachine⟩ | ⟨dev, t, hdev, ht, hmachine, hok⟩
  · rw [hmachine] at hio
    rw [List.self_eq_append_right.mp hio] at hdisks
    rw [if_neg hstatus]
    exact follows_nil (served_nil hdisks)
  have hlog : t.log = w.cpu.log ++ io := by
    rw [← hio, hmachine]
    rfl
  obtain ⟨hother, hperf⟩ :=
    served_of_transfer moved_readSector onlyAnswers_read hdev ht hlog hblck hdisks
  -- a read leaves every disk as it is
  have hsame : disks' = w.disks := by
    funext p
    by_cases hp : p = did.toNat
    · rw [hp]
      have hcmd : ideDeviceReadSectCmd ≠ ideDeviceWriteSectCmd := by decide
      exact funext fun b => hperf.outside b (.inl hcmd)
    · exact hother p hp
  split
  case isFalse => exact follows_nil hsame
  case isTrue hstatus =>
    have hrax := toNat_low8_ne_zero (hok.mp hstatus)
    have hcount := sectors_eq h1
    obtain ⟨hmem, hshows⟩ := archIdeDeviceRead_filled ht hrax (by
      show 512 * sectors blocks ≤ _
      omega)
    have hsize : (commandFor did.toNat blck blocks ideDeviceReadSectCmd).size =
        512 * blocks.toNat := size_commandFor h1 h2
    have hden : denoted (commandFor did.toNat blck blocks ideDeviceReadSectCmd).count =
        sectors blocks := (denoted_setWidth h1 h2).trans hcount.symm
    have hread := hperf.read rfl rfl
    rw [hden] at hread
    have hdata := hread.resolve_right hshows
    rw [hsize, start_commandFor hblck] at hdata
    have hbytes : bytesAt r.machine.mem buffer (512 * blocks.toNat) =
        load (w.disks did.toNat) (512 * blck.toNat) (512 * blocks.toNat) := by
      refine List.map_congr_left fun i hi => ?_
      rw [List.mem_range] at hi
      have hfill : r.machine.mem = filled w.cpu.mem buffer (512 * sectors blocks)
          (answers ((dataPort (dev.ideBus.setWidth 64)).setWidth 16)) := by
        rw [hmachine]
        exact hmem
      rw [hfill, hcount, filled_add hi (by omega)]
      exact hdata i hi
    refine follows_one (fun p _ => congrFun hsame p) ?_
    rw [hbytes]
    show Access.Obeys _ _ (disks' did.toNat)
    rw [hsame]
    exact .read _ _ _

lemma follows_write (hblck : blck.toNat < 2 ^ 28) (h1 : 1 ≤ blocks.toNat)
    (h2 : blocks.toNat ≤ 256)
    (hreq : writeDisk fuel (diskIo detect) { w.cpu with inp := answers } buffer did blck blocks =
      some r)
    (hio : r.machine.log = w.cpu.log ++ io)
    (hdisks : Served answers io w.disks disks') :
    Follows w ⟨r.machine, disks'⟩
      [(did.toNat, if r.status = .ioOk then
        .wrote (512 * blck.toNat) (bytesAt w.cpu.mem buffer (512 * blocks.toNat))
      else .lost (512 * blck.toNat) (512 * blocks.toNat))] := by
  rcases ioDisk_cases hreq with ⟨hstatus, hmachine⟩ | ⟨dev, t, hdev, ht, hmachine, hok⟩
  · rw [hmachine] at hio
    rw [List.self_eq_append_right.mp hio] at hdisks
    have hsame : disks' = w.disks := served_nil hdisks
    rw [if_neg hstatus]
    refine follows_one (fun p _ => congrFun hsame p) (.lost fun b _ => ?_)
    exact congrFun (congrFun hsame _) b
  have hlog : t.log = w.cpu.log ++ io := by
    rw [← hio, hmachine]
    rfl
  obtain ⟨hother, hperf⟩ :=
    served_of_transfer moved_writeSector onlyAnswers_write hdev ht hlog hblck hdisks
  have hstart : (commandFor did.toNat blck blocks ideDeviceWriteSectCmd).start =
      512 * blck.toNat := start_commandFor hblck
  have hsize : (commandFor did.toNat blck blocks ideDeviceWriteSectCmd).size =
      512 * blocks.toNat := size_commandFor h1 h2
  refine follows_one hother ?_
  split
  case isFalse =>
    refine .lost fun b hb => hperf.outside b (.inr ?_)
    rwa [hstart, hsize]
  case isTrue hstatus =>
    have hrax := toNat_low8_ne_zero (hok.mp hstatus)
    have hcount := sectors_eq h1
    obtain ⟨-, hsent, hshows⟩ := archIdeDeviceWrite_sent ht hrax
    have hden : denoted (commandFor did.toNat blck blocks ideDeviceWriteSectCmd).count =
        sectors blocks := (denoted_setWidth h1 h2).trans hcount.symm
    obtain rfl := List.append_cancel_left (hlog.symm.trans hsent)
    have hwords : wordsOf ((dataPort (dev.ideBus.setWidth 64)).setWidth 16)
        (requested (dataPort (dev.ideBus.setWidth 64)) (dev.busDev.setWidth 64) blck blocks
          ideDeviceWriteSectCmd ++ outws ((dataPort (dev.ideBus.setWidth 64)).setWidth 16)
            w.cpu.mem buffer (256 * sectors blocks)) =
        wordsOf ((dataPort (dev.ideBus.setWidth 64)).setWidth 16)
          (outws ((dataPort (dev.ideBus.setWidth 64)).setWidth 16) w.cpu.mem buffer
            (256 * sectors blocks)) := by
      rw [wordsOf_append, wordsOf_requested, List.nil_append]
    have hwrite := hperf.write rfl rfl (by
      rw [hden]
      exact (congrArg List.length hwords).trans (length_wordsOf_outws _ _ _ _))
    rw [hden] at hwrite
    have hdisk := hwrite.resolve_right hshows
    have hbytes := (congrArg bytesOf hwords).trans (bytesOf_outws _ _ _ _)
    have hstored : disks' did.toNat = store (w.disks did.toNat) (512 * blck.toNat)
        (bytesAt w.cpu.mem buffer (512 * blocks.toNat)) := by
      rw [hdisk, hstart, ← hcount, show 512 * sectors blocks = 2 * (256 * sectors blocks) by omega]
      exact congrArg _ hbytes
    show Access.Obeys _ _ (disks' did.toNat)
    rw [hstored]
    exact .wrote _ _ _

end Requests

/-! ### Runs -/

lemma Step.follows {detect : ℕ → ℕ → Detection} {w w' : World} {e : Event}
    {hist : List (ℕ × Access (BitVec 8))} (h : Step detect w e hist w') (hallow : Allowed e) :
    Follows w w' hist := by
  cases h with
  | program => exact follows_nil rfl
  | read hreq hio hdisks => exact follows_read hallow.1 hallow.2.1 hallow.2.2 hreq hio hdisks
  | write hreq hio hdisks => exact follows_write hallow.1 hallow.2.1 hallow.2.2 hreq hio hdisks

lemma Runs.follows {detect : ℕ → ℕ → Detection} {w w' : World} {es : List Event}
    {hist : List (ℕ × Access (BitVec 8))} (h : Runs detect w es hist w') : Follows w w' hist := by
  induction h with
  | nil => exact follows_nil rfl
  | cons hallow hstep _ ih =>
    intro p
    have happend : ∀ hist hist', histOf p (hist ++ hist') = histOf p hist ++ histOf p hist' :=
      fun _ _ => List.filterMap_append
    rw [happend]
    exact (hstep.follows hallow p).append (ih p)

/-! ### A request that succeeds -/

/-- The entry of a transfer of block 5 of the first place. -/
def entry (s : Machine) : Machine :=
  Machine.push
    { s with inp := fun _ => readyStatus, rdi := 0, rsi := 0, rdx := 0x1000, rcx := 5, r8 := 1 } 15

/-- A request for this block, to devices that stay ready. -/
lemma exists_request {sector : Machine → Machine} {last : ℕ → Machine → Option Machine}
    (hsec : ∀ s, Moved 256 s (sector s)) (hlast : AnswersReady last) (hout : OnlyAnswers last)
    (failed : String) (s : Machine) :
    ∃ fuel t, transfer cmd sector last fuel (entry s) = some t ∧ t.rax = 1 ∧
      ioDisk (transfer cmd sector last) failed fuel (diskIo allDetected)
        { s with inp := fun _ => readyStatus } 0x1000 0 5 1 = some ⟨.ioOk, t.drop, []⟩ := by
  obtain ⟨dev, hdev, hata, hbus, hdevice⟩ : ∃ dev, (diskIo allDetected)[0]? = some dev ∧
      dev.ataDetect = ideAtaDevice ∧ dev.ideBus = 0 ∧ dev.busDev = 0 := ⟨_, rfl, rfl, rfl, rfl⟩
  have hentry : (argsOf { s with inp := fun _ => readyStatus } dev 0x1000 5 1).push 15 =
      entry s := by
    rw [argsOf, hbus, hdevice]
    rfl
  obtain ⟨fuel, t, ht, hrax, hret⟩ := @transfer_ready _ _ cmd hsec hlast hout (entry s) fun _ => rfl
  have htop : t.stack.head? = some 15 := hret.top
  have hcall : (argsOf { s with inp := fun _ => readyStatus } dev 0x1000 5 1).call 15
      (transfer cmd sector last fuel) = some t.drop := by
    exact callOn_of_head (by rw [hentry, ht]) htop
  have hal : t.drop.al ≠ 0 := by simp [hrax]
  refine ⟨fuel, t, ht, hrax, ?_⟩
  rw [@ioDisk_eq allDetected 0 dev hdev hata, hcall, Option.bind_some, if_pos hal]

/-- A request to the first place is served when its device does what it is told. -/
lemma served_first {answers : BitVec 16 → Stream' (BitVec 16)} {ws : List Io}
    {disks : ℕ → ℕ → BitVec 8} {disk' : ℕ → BitVec 8}
    (hws : ∀ w ∈ ws, w.IsWord ((dataPort 0).setWidth 16))
    (hperf : Performs answers (dataPort 0) (commandFor 0 5 1 cmd)
      (requested (dataPort 0) 0 5 1 cmd ++ ws) (disks 0) disk') :
    Served answers (requested (dataPort 0) 0 5 1 cmd ++ ws) disks
      (Function.update disks 0 disk') := by
  have hcommand := @commandOf_requested 0 5 1 cmd (dataPort 0) 0 ws rfl (by decide) hws
  have hother := @commandOf_other 5 1 cmd 0 1 (by decide) (by decide) (by decide) 0 ws hws
  have hupdate : ∀ p, p ≠ 0 → Function.update disks 0 disk' p = disks p :=
    fun p hp => Function.update_of_ne hp _ _
  refine ⟨fun bus hbus => ?_, fun p hp => hupdate p (by omega)⟩
  obtain rfl | rfl : bus = 0 ∨ bus = 1 := by omega
  · have hplace : (commandFor 0 5 1 cmd).place 0 = 0 := rfl
    rw [busServed_some hcommand, hplace, Function.update_self]
    exact ⟨fun p _ hp => hupdate p hp, hperf⟩
  · exact (busServed_none hother).mpr fun p hp => hupdate p (by omega)

/-- The bytes that a port gives on which there is always a device that is ready. -/
def readyBytes : ℕ → BitVec 8 := byteOf readyStatus

/-- The block is written with what is in the buffer. -/
lemma exists_write (w : World) : ∃ hist w',
    Step allDetected w (.write 0x1000 0 5 1 .ioOk) hist w' ∧
      w'.disks 0 = store (w.disks 0) (512 * 5) (bytesAt w.cpu.mem 0x1000 512) := by
  obtain ⟨fuel, t, ht, hrax, hreq⟩ := @exists_request ideDeviceWriteSectCmd _ _
    moved_writeSector answersReady_write onlyAnswers_write
    "[kernel] error: write disk sector#%d count#%d failed" w.cpu
  obtain ⟨-, hsent, -⟩ := archIdeDeviceWrite_sent ht (by rw [hrax]; decide)
  have hlog : t.drop.log = w.cpu.log ++ (requested (dataPort 0) 0 5 1 ideDeviceWriteSectCmd ++
      outws ((dataPort 0).setWidth 16) w.cpu.mem 0x1000 256) := hsent
  have hws : ∀ v ∈ outws ((dataPort 0).setWidth 16) w.cpu.mem 0x1000 256,
      v.IsWord ((dataPort 0).setWidth 16) := by
    intro v hv
    obtain ⟨i, -, rfl⟩ := List.mem_map.mp hv
    rfl
  have hwords : bytesOf (wordsOf ((dataPort 0).setWidth 16)
      (requested (dataPort 0) 0 5 1 ideDeviceWriteSectCmd ++
        outws ((dataPort 0).setWidth 16) w.cpu.mem 0x1000 256)) =
      bytesAt w.cpu.mem 0x1000 512 := by
    rw [wordsOf_append, wordsOf_requested, List.nil_append, bytesOf_outws]
  obtain ⟨disk', hdisk⟩ : ∃ d, d = store (w.disks 0) (512 * 5) (bytesAt w.cpu.mem 0x1000 512) :=
    ⟨_, rfl⟩
  have hfirst : Function.update w.disks 0 disk' 0 = disk' := Function.update_self ..
  refine ⟨_, ⟨t.drop, Function.update w.disks 0 disk'⟩, .write hreq hlog (served_first hws ?_),
    hfirst.trans hdisk⟩
  refine ⟨fun b hb => ?_, fun _ _ _ => .inl ?_, fun _ hcmd => absurd hcmd (by decide)⟩
  · have hlen : (bytesAt w.cpu.mem 0x1000 512).length = 512 := by simp [bytesAt]
    have hout : b < 512 * 5 ∨ 512 * 5 + 512 ≤ b := hb.resolve_left fun hcmd => hcmd rfl
    rw [hdisk, store_of_notMem (by rwa [hlen])]
  · rw [hdisk, ← hwords]
    rfl

/-- The block is read, when it is what the device's data port gives. -/
lemma exists_read (w : World) (hdisk : ∀ i < 512, w.disks 0 (512 * 5 + i) = readyBytes i) :
    ∃ hist w', Step allDetected w (.read 0x1000 0 5 1 .ioOk) hist w' := by
  obtain ⟨fuel, t, ht, hrax, hreq⟩ := @exists_request ideDeviceReadSectCmd _ _
    moved_readSector answersReady_read onlyAnswers_read
    "[kernel] error: read disk sector#%d count#%d failed" w.cpu
  obtain ⟨ws, hlog, hws⟩ := transfer_words moved_readSector onlyAnswers_read ht
  have hlog' : t.drop.log =
      w.cpu.log ++ (requested (dataPort 0) 0 5 1 ideDeviceReadSectCmd ++ ws) := hlog
  refine ⟨_, ⟨t.drop, Function.update w.disks 0 (w.disks 0)⟩, .read hreq hlog'
    (served_first hws ⟨fun b _ => rfl, fun _ hcmd => absurd hcmd (by decide), fun _ _ => .inl ?_⟩)⟩
  exact fun i hi => (hdisk i hi).symm

/-- A block is written, the buffer is cleared, and the block is read. -/
lemma exists_writeRead (s : Machine) (hbuffer : ∀ i < 512, s.mem (0x1000 + BitVec.ofNat 64 i) =
    readyBytes i) : ∃ (cleared : Machine) (hist : _) (w' : World),
    (∀ a, cleared.mem a = 0) ∧ Runs allDetected ⟨s, fun _ _ => 0xFF⟩
      [.write 0x1000 0 5 1 .ioOk, .program cleared, .read 0x1000 0 5 1 .ioOk] hist w' := by
  obtain ⟨hist, w, hw, hdisk⟩ := exists_write ⟨s, fun _ _ => 0xFF⟩
  let cleared : Machine := { w.cpu with mem := fun _ => 0 }
  have hread : ∀ i < 512, w.disks 0 (512 * 5 + i) = readyBytes i := by
    intro i hi
    have hlen : i < (bytesAt s.mem 0x1000 512).length := by simpa [bytesAt] using hi
    rw [hdisk, store, if_pos (Nat.le_add_right _ _), Nat.add_sub_cancel_left,
      List.getD_eq_getElem _ _ hlen]
    simpa [bytesAt] using hbuffer i hi
  obtain ⟨hist', w', hw'⟩ := exists_read { w with cpu := cleared } hread
  exact ⟨cleared, _, w', fun _ => rfl, .cons ⟨by decide, by decide, by decide⟩ hw
    (.cons trivial (.program w rfl) (.cons ⟨by decide, by decide, by decide⟩ hw' (.nil w')))⟩

/-- **Disks keep what is written.**  In every run, whatever the devices answer and the rest of
the kernel does in between, a read of a disk that is reported done has in its buffer what the
last write to these sectors of this disk had in its own, unless a write to them has failed. -/
theorem ide_serves {detect : ℕ → ℕ → Detection} {w w' : World} {es : List Event}
    {hist : List (ℕ × Access (BitVec 8))} (h : Runs detect w es hist w') (p : ℕ) :
    Access.Serves (w.disks p) (histOf p hist) :=
  (h.follows p).serves

/-- A buffer with what the device's data port is going to give. -/
def filledReady : Machine := { ready with mem := fun a => readyBytes (a - 0x1000).toNat }

theorem ide_serves_writeRead : ∃ (cleared : Machine) (hist : _) (w' : World),
    (∀ a, cleared.mem a = 0) ∧
      Runs allDetected ⟨filledReady, fun _ _ => 0xFF⟩
        [.write 0x1000 0 5 1 .ioOk, .program cleared, .read 0x1000 0 5 1 .ioOk] hist w' ∧
        Access.Serves (fun _ => 0xFF) (histOf 0 hist) := by
  have hbuffer : ∀ i < 512, filledReady.mem (0x1000 + BitVec.ofNat 64 i) = readyBytes i := by
    intro i hi
    change readyBytes (0x1000 + BitVec.ofNat 64 i - 0x1000).toNat = _
    rw [add_sub_cancel_left, BitVec.toNat_ofNat, Nat.mod_eq_of_lt (by omega)]
  obtain ⟨cleared, hist, w', hcleared, hrun⟩ := exists_writeRead filledReady hbuffer
  exact ⟨cleared, hist, w', hcleared, hrun, ide_serves hrun 0⟩

end EvtDrivenOs.Ide
