/-
The disk requests of the IDE driver and the sectors that they touch.

`read_disk` and `write_disk` pass the block number and the count on as they are, while
the controller gets 28 bits of the block number and 8 bits of the count.
-/
import EvtDrivenOs.Diskio
import EvtDrivenOs.Ide.Return

namespace EvtDrivenOs.Ide

open EvtDrivenOs.Lib.X64
open EvtDrivenOs.Diskio (DiskStatus)

/-! ### The table of devices -/

/-- The number of buses. -/
def ideDevBuses : ℕ := 2

/-- The number of devices on a bus. -/
def ideBusDevices : ℕ := 2

/-- The number of letters. -/
def ideDevLetters : ℕ := 4

/-- The letter of a device that has none. -/
def ideNoLetter : Char := Char.ofNat 0

/-- The word of the identification with the lower half of the number of sectors. -/
def ideCapLbaLo : ℕ := 60

/-- The word of the identification with the upper half of it. -/
def ideCapLbaHi : ℕ := 61

/-- The size of a sector. -/
def ideAtaSectorBytes : BitVec 64 := 512

/-- There is no device. -/
def ideNoDevice : BitVec 8 := 0

/-- There is a disk. -/
def ideAtaDevice : BitVec 8 := 1

/-- The result of `_arch_ide_device_detect`, and the identity block as it leaves it. -/
structure Detection where
  result : BitVec 8
  identity : ℕ → BitVec 16

/-- `ide_dev_t` -/
structure IdeDev where
  letter : Char
  ideBus : BitVec 8
  busDev : BitVec 8
  ataDetect : BitVec 8
  capacity : BitVec 64
  identityBlock : ℕ → BitVec 16

/-- The words are promoted to `int`, so that the sum is extended with its sign. -/
def capSectors (identity : ℕ → BitVec 16) : BitVec 64 :=
  ((identity ideCapLbaHi).setWidth 32 <<< 16 ||| (identity ideCapLbaLo).setWidth 32).signExtend 64

/-- The body of the loops of `disk_io`: one entry more, and the next letter. -/
def diskIoEntry (detect : ℕ → ℕ → Detection) (ideBus ideBusDev : ℕ) (st : List IdeDev × ℕ) :
    List IdeDev × ℕ :=
  let found := detect ideBus ideBusDev
  let dev : IdeDev :=
    { letter := ideNoLetter
      ideBus := BitVec.ofNat 8 ideBus
      busDev := BitVec.ofNat 8 ideBusDev
      ataDetect := found.result
      capacity := 0
      identityBlock := found.identity }
  if dev.ataDetect ≠ ideNoDevice then
    (st.1 ++ [{ dev with
      letter := ['C', 'D', 'E', 'F'].getD st.2 ideNoLetter
      capacity := capSectors found.identity * ideAtaSectorBytes }], st.2 + 1)
  else (st.1 ++ [dev], st.2)

/-- `disk_io` -/
def diskIo (detect : ℕ → ℕ → Detection) : List IdeDev :=
  ((List.range ideDevBuses).foldl (fun st bus =>
    (List.range ideBusDevices).foldl (fun st dev => diskIoEntry detect bus dev st) st) ([], 0)).1

/-! ### Requests -/

/-- What is left when a request has returned. -/
structure DiskResult where
  status : DiskStatus
  machine : Machine
  /-- The entries made in the kernel's journal, with their arguments. -/
  journal : List (String × List ℤ)

/-- The body that `read_disk` and `write_disk` have in common. -/
def ioDisk (io : ℕ → Machine → Option Machine) (failed : String) (fuel : ℕ) (ideDev : List IdeDev)
    (s : Machine) (buffer did blck blocks : BitVec 64) : Option DiskResult :=
  if ideDevLetters ≤ did.toNat then some ⟨.invalid, s, []⟩
  else do
    let dev ← ideDev[did.toNat]?
    if dev.ataDetect = ideNoDevice then some ⟨.notReady, s, []⟩
    else
      let s := { s with
        rdi := dev.ideBus.setWidth 64
        rsi := dev.busDev.setWidth 64
        rdx := buffer
        rcx := blck
        r8 := blocks }
      let s ← s.call 15 (io fuel)
      if s.al ≠ 0 then some ⟨.ioOk, s, []⟩
      else
        some ⟨.ioErr, s, [(failed, [(blck.setWidth 32).toInt, (blocks.setWidth 32).toInt])]⟩

/-- A read, with its message. -/
def readDisk : ℕ → List IdeDev → Machine → BitVec 64 → BitVec 64 → BitVec 64 → BitVec 64 →
    Option DiskResult :=
  ioDisk archIdeDeviceRead "[kernel] error: read disk sector#%d count#%d failed"

/-- A write, with its message. -/
def writeDisk : ℕ → List IdeDev → Machine → BitVec 64 → BitVec 64 → BitVec 64 → BitVec 64 →
    Option DiskResult :=
  ioDisk archIdeDeviceWrite "[kernel] error: write disk sector#%d count#%d failed"

/-! ### The entries of the table -/

/-- What a request uses of an entry. -/
def IdeDev.place (dev : IdeDev) : BitVec 8 × BitVec 8 × BitVec 8 :=
  (dev.ideBus, dev.busDev, dev.ataDetect)

lemma map_place_diskIoEntry (detect : ℕ → ℕ → Detection) (bus dev : ℕ) (st : List IdeDev × ℕ) :
    (diskIoEntry detect bus dev st).1.map IdeDev.place =
      st.1.map IdeDev.place ++
        [(BitVec.ofNat 8 bus, BitVec.ofNat 8 dev, (detect bus dev).result)] := by
  simp only [diskIoEntry]
  split
  · simp only [List.map_append, List.map_cons, List.map_nil, IdeDev.place]
  · simp only [List.map_append, List.map_cons, List.map_nil, IdeDev.place]

lemma map_place_diskIo (detect : ℕ → ℕ → Detection) :
    (diskIo detect).map IdeDev.place =
      [(0, 0, (detect 0 0).result), (0, 1, (detect 0 1).result), (1, 0, (detect 1 0).result),
        (1, 1, (detect 1 1).result)] := by
  simp only [diskIo, ideDevBuses, ideBusDevices, List.range_succ, List.range_zero, List.nil_append,
    List.foldl_append, List.foldl_cons, List.foldl_nil, map_place_diskIoEntry, List.map_nil]
  rfl

/-- Entry `did` is the device `did % 2` of the bus `did / 2`. -/
lemma place_of_diskIo {detect : ℕ → ℕ → Detection} {did : ℕ} {dev : IdeDev}
    (h : (diskIo detect)[did]? = some dev) :
    did < 4 ∧ dev.ideBus.setWidth 64 = BitVec.ofNat 64 (did / 2) ∧
      dev.busDev.setWidth 64 = BitVec.ofNat 64 (did % 2) := by
  have hmap : ((diskIo detect).map IdeDev.place)[did]? = some dev.place := by
    rw [List.getElem?_map, h, Option.map_some]
  rw [map_place_diskIo] at hmap
  match did with
  | 0 | 1 | 2 | 3 =>
    have hplace := Option.some.inj hmap
    simp only [IdeDev.place, Prod.mk.injEq] at hplace
    obtain ⟨hbus, hdev, -⟩ := hplace
    exact ⟨by omega, by rw [← hbus]; rfl, by rw [← hdev]; rfl⟩
  | n + 4 => cases hmap

/-! ### What a request touches -/

/-- The block address in the registers of a controller. -/
def lba28 (head high mid low : BitVec 8) : BitVec 28 := head.setWidth 4 ++ high ++ mid ++ low

/-- The number of sectors that the count register stands for. -/
def denoted (count : BitVec 8) : ℕ := if count = 0 then 256 else count.toNat

/-- The ports show a transfer of just the sectors asked for: the device is selected by its
bus and its bit of the head register, the address is the block, the count register stands
for the sectors moved, and these are as many as asked for. -/
def TouchesExactly (did : ℕ) (blck blocks : BitVec 64) (io : List Io) : Prop :=
  let data := dataPort (BitVec.ofNat 64 (did / 2))
  ∃ head high mid low count,
    lastOut (regPort data ideDriveHeadReg) io = some head ∧
    lastOut (regPort data ideLbaHighReg) io = some high ∧
    lastOut (regPort data ideLbaMidReg) io = some mid ∧
    lastOut (regPort data ideLbaLowReg) io = some low ∧
    lastOut (regPort data ideSectorCountReg) io = some count ∧
    (head.getLsbD 4 = true ↔ did % 2 = 1) ∧ head.getLsbD 6 = true ∧
    (lba28 head high mid low).toNat = blck.toNat ∧
    io.countP (Io.IsWord (data.setWidth 16)) = 256 * denoted count ∧
    denoted count = blocks.toNat

lemma denoted_pos (count : BitVec 8) : 1 ≤ denoted count ∧ denoted count ≤ 256 := by
  rw [denoted]
  split
  · omega
  · have := count.isLt
    bv_omega

/-- Requests past 28 bits of the address, for no sector or for more than 256, are not
touched exactly by any log. -/
lemma TouchesExactly.bounds {did : ℕ} {blck blocks : BitVec 64} {io : List Io}
    (h : TouchesExactly did blck blocks io) :
    blck.toNat < 2 ^ 28 ∧ 1 ≤ blocks.toNat ∧ blocks.toNat ≤ 256 := by
  obtain ⟨head, high, mid, low, count, -, -, -, -, -, -, -, hlba, -, hcount⟩ := h
  have hpos := denoted_pos count
  exact ⟨hlba ▸ (lba28 head high mid low).isLt, hcount ▸ hpos.1, hcount ▸ hpos.2⟩

lemma setWidth_driveHead (device blck : BitVec 64) :
    (driveHead device blck).setWidth 4 = (blck >>> 24).setWidth 4 := by
  have hmode : ideDriveHeadLbaMode.setWidth 4 = 0#4 := by decide
  have hslave : ideDriveHeadSlave.setWidth 4 = 0#4 := by decide
  rw [driveHead, BitVec.setWidth_setWidth_of_le _ (by omega), BitVec.setWidth_or, hmode]
  split
  · simp
  · simp [BitVec.setWidth_or, hslave]

lemma lba28_driveHead (device blck : BitVec 64) :
    lba28 (driveHead device blck) ((blck >>> 16).setWidth 8) ((blck >>> 8).setWidth 8)
      (blck.setWidth 8) = blck.setWidth 28 := by
  rw [lba28, setWidth_driveHead]
  apply BitVec.eq_of_getLsbD_eq
  intro i hi
  simp only [BitVec.getLsbD_append, BitVec.getLsbD_setWidth, BitVec.getLsbD_ushiftRight]
  rcases (by omega : i < 8 ∨ (8 ≤ i ∧ i < 16) ∨ (16 ≤ i ∧ i < 24) ∨ (24 ≤ i ∧ i < 28)) with
    h | ⟨h, h'⟩ | ⟨h, h'⟩ | ⟨h, h'⟩
  · simp [h, hi]
  · simp [hi, show ¬ i < 8 by omega, show i - 8 < 8 by omega, show 8 + (i - 8) = i by omega]
  · simp [hi, show ¬ i < 8 by omega, show ¬ i - 8 < 8 by omega, show i - 8 - 8 < 8 by omega,
      show 16 + (i - 8 - 8) = i by omega]
  · simp [hi, show ¬ i < 8 by omega, show ¬ i - 8 < 8 by omega, show ¬ i - 8 - 8 < 8 by omega,
      show i - 8 - 8 - 8 < 4 by omega, show 24 + (i - 8 - 8 - 8) = i by omega]

lemma driveHead_bits {device blck : BitVec 64} (hblck : blck.toNat < 2 ^ 28) :
    ((driveHead device blck).getLsbD 4 = true ↔ device ≠ 0) ∧
      (driveHead device blck).getLsbD 6 = true := by
  have hbit : blck.getLsbD 28 = false := Nat.testBit_lt_two_pow hblck
  have hmode : ideDriveHeadLbaMode.getLsbD 4 = false ∧ ideDriveHeadLbaMode.getLsbD 6 = true := by
    decide
  have hslave : ideDriveHeadSlave.getLsbD 4 = true := by decide
  simp only [driveHead, BitVec.getLsbD_setWidth, BitVec.getLsbD_or, hmode]
  by_cases hd : device = 0#64
  · simpa [hd] using hbit
  · simp [hd, hslave]

lemma denoted_setWidth {blocks : BitVec 64} (h1 : 1 ≤ blocks.toNat) (h2 : blocks.toNat ≤ 256) :
    denoted (blocks.setWidth 8) = blocks.toNat := by
  rw [denoted]
  have hmod : (blocks.setWidth 8).toNat = blocks.toNat % 256 := BitVec.toNat_setWidth 8 blocks
  split
  case isTrue h =>
    rw [h] at hmod
    change 0 = _ at hmod
    omega
  case isFalse h =>
    have hne : (blocks.setWidth 8).toNat ≠ 0 := fun h0 => h (BitVec.eq_of_toNat_eq h0)
    omega

@[simp] lemma regPort_inj (data : BitVec 64) (r r' : BitVec 16) :
    regPort data r = regPort data r' ↔ r = r' := by
  simp [regPort]

/-- What a request writes before it moves any words. -/
def requested (data device blck blocks : BitVec 64) (cmd : BitVec 8) : List Io :=
  programmed data device blck blocks ++ [.out (regPort data ideStatusCommandReg) cmd]

/-- The registers after a request was programmed and its command sent. -/
lemma lastOut_programmed (data device blck blocks : BitVec 64) (cmd : BitVec 8) {ws : List Io}
    (hws : ∀ w ∈ ws, w.IsWord (data.setWidth 16)) :
    let io := requested data device blck blocks cmd ++ ws
    lastOut (regPort data ideDriveHeadReg) io = some (driveHead device blck) ∧
      lastOut (regPort data ideLbaHighReg) io = some ((blck >>> 16).setWidth 8) ∧
      lastOut (regPort data ideLbaMidReg) io = some ((blck >>> 8).setWidth 8) ∧
      lastOut (regPort data ideLbaLowReg) io = some (blck.setWidth 8) ∧
      lastOut (regPort data ideSectorCountReg) io = some (blocks.setWidth 8) := by
  simp only [lastOut_append, lastOut_words hws, Option.none_or]
  simp [requested, programmed, lastOut, ideDriveHeadReg, ideLbaHighReg, ideLbaMidReg, ideLbaLowReg,
    ideSectorCountReg, ideStatusCommandReg]

/-- The words are all that a transfer moves. -/
lemma countP_programmed (data device blck blocks : BitVec 64) (cmd : BitVec 8) {ws : List Io}
    (hws : ∀ w ∈ ws, w.IsWord (data.setWidth 16)) :
    (requested data device blck blocks cmd ++ ws).countP (Io.IsWord (data.setWidth 16)) =
      ws.length := by
  have hreq :
      (requested data device blck blocks cmd).countP (Io.IsWord (data.setWidth 16)) = 0 := by
    rfl
  rw [List.countP_append, List.countP_eq_length.mpr fun w hw => decide_eq_true (hws w hw), hreq,
    Nat.zero_add]

/-- The log of a transfer that left its loop at the end. -/
lemma touchesExactly_of_words {did : ℕ} {cmd : BitVec 8} {blck blocks data device : BitVec 64}
    {ws : List Io} (hdata : data = dataPort (BitVec.ofNat 64 (did / 2)))
    (hdev : device = BitVec.ofNat 64 (did % 2)) (hblck : blck.toNat < 2 ^ 28)
    (h1 : 1 ≤ blocks.toNat) (h2 : blocks.toNat ≤ 256) (hlen : ws.length = 256 * blocks.toNat)
    (hws : ∀ w ∈ ws, w.IsWord (data.setWidth 16)) :
    TouchesExactly did blck blocks (requested data device blck blocks cmd ++ ws) := by
  obtain ⟨hhead, hhigh, hmid, hlow, hcnt⟩ := lastOut_programmed data device blck blocks cmd hws
  obtain ⟨hslave, hlba⟩ := @driveHead_bits device _ hblck
  have hcount : denoted (blocks.setWidth 8) = blocks.toNat := denoted_setWidth h1 h2
  have hdevice : device ≠ 0 ↔ did % 2 = 1 := by
    rcases Nat.mod_two_eq_zero_or_one did with h | h
    · simp [hdev, h]
    · simp [hdev, h]
  refine ⟨driveHead device blck, (blck >>> 16).setWidth 8, (blck >>> 8).setWidth 8,
    blck.setWidth 8, blocks.setWidth 8, hdata ▸ hhead, hdata ▸ hhigh, hdata ▸ hmid, hdata ▸ hlow,
    hdata ▸ hcnt, hslave.trans hdevice, hlba, ?_, ?_, hcount⟩
  · rw [lba28_driveHead, BitVec.toNat_setWidth, Nat.mod_eq_of_lt hblck]
  · rw [← hdata, countP_programmed data device blck blocks cmd hws, hlen, hcount]

/-! ### Requests that succeed -/

variable {sector : Machine → Machine} {last : ℕ → Machine → Option Machine} {cmd : BitVec 8}

/-- A transfer that reports success moved the words of every sector. -/
lemma log_of_transfer (hsec : ∀ s, Moved 256 s (sector s)) (hlast : OnlyAnswers last) {fuel : ℕ}
    {s t : Machine} (h : transfer cmd sector last fuel s = some t) (ht : t.rax ≠ 0) :
    ∃ ws, t.log = s.log ++ (requested (dataPort s.rdi) s.rsi s.rcx s.r8 cmd ++ ws) ∧
      ws.length = 256 * sectors s.r8 ∧ ∀ w ∈ ws, w.IsWord ((dataPort s.rdi).setWidth 16) := by
  rcases transfer_some h with ⟨hrax, -⟩ | ⟨rest, -, h⟩
  · exact absurd hrax ht
  · obtain ⟨hcount, hne⟩ := loopStart_rcx cmd s rest
    rcases transferNxtSect_some hsec hlast h hne with ⟨-, hrax⟩ | htr
    · exact absurd hrax ht
    · obtain ⟨ws, hlog, hlen, hws⟩ := htr.log
      refine ⟨ws, ?_, hcount ▸ hlen, hws⟩
      rw [hlog]
      simp only [loopStart, answered, prepared, requested, Machine.push, List.append_assoc]

/-- The values of a status register that always has the device ready, with data. -/
def readyStatus : Stream' (BitVec 16) := Stream'.const 0x48

lemma settles_readyStatus : Settles readyStatus 0x48 readyStatus := .now (by decide)

/-- What follows the last sector answers 1 if the device stays ready. -/
def AnswersReady (last : ℕ → Machine → Option Machine) : Prop :=
  ∃ m, ∀ fuel ≥ m, ∀ s, status s = readyStatus → ∃ rest, last fuel s = some (answered s 1 rest)

lemma answersReady_read : AnswersReady fun _ s => some (s.setAl 1) :=
  ⟨0, fun _ _ s _ => ⟨status s, by simp [answered]⟩⟩

lemma answersReady_write : AnswersReady fun fuel s => s.call 14 (waitIdeDeviceNotBusy fuel) := by
  obtain ⟨m, hm⟩ := call_waitIdeDeviceNotBusy_of_settles settles_readyStatus
  exact ⟨m, fun fuel hf s hs => ⟨readyStatus, hm fuel hf s 14 hs⟩⟩

/-- A loop over any number of sectors succeeds with a device that stays ready. -/
lemma transferNxtSect_ready (hsec : ∀ s, Moved 256 s (sector s)) (hlast : AnswersReady last)
    (n : ℕ) : ∃ m, ∀ fuel ≥ m, ∀ s : Machine, s.rcx.toNat = n + 1 → status s = readyStatus →
      ∃ t, transferNxtSect sector last fuel s = some t ∧ t.rax = 1 := by
  obtain ⟨m, hm⟩ := call_waitIdeDeviceNotBusy_of_settles settles_readyStatus
  obtain ⟨k, hk⟩ := hlast
  have he : ¬ HasError 0x48 := by decide
  induction n with
  | zero =>
    refine ⟨max m k + 1, fun fuel hf s hn hs => ?_⟩
    obtain ⟨fuel, rfl⟩ : ∃ j, fuel = j + 1 := ⟨fuel - 1, by omega⟩
    have hdone := sectorDone_nextSector hsec s readyStatus
    obtain ⟨rest, hrest⟩ := hk fuel (by omega) _ hdone.status
    have hone : s.rcx - 1 = 0 := by bv_omega
    rw [transferNxtSect_succ hsec (hm fuel (by omega) (s.push s.rcx) 9 hs), if_neg he,
      if_neg (not_not.mpr hone), hrest]
    exact ⟨_, rfl, by simp [answered]⟩
  | succ n ih =>
    obtain ⟨j, hj⟩ := ih
    refine ⟨max m j + 1, fun fuel hf s hn hs => ?_⟩
    obtain ⟨fuel, rfl⟩ : ∃ i, fuel = i + 1 := ⟨fuel - 1, by omega⟩
    have hdone := sectorDone_nextSector hsec s readyStatus
    have hne : s.rcx - 1 ≠ 0 := by
      intro h
      bv_omega
    rw [transferNxtSect_succ hsec (hm fuel (by omega) (s.push s.rcx) 9 hs), if_neg he, if_pos hne]
    exact hj fuel (by omega) _ (by rw [hdone.rcx]; bv_omega) hdone.status

/-- So does a whole transfer. -/
lemma transfer_ready (hsec : ∀ s, Moved 256 s (sector s)) (hlast : AnswersReady last)
    (hout : OnlyAnswers last) {s : Machine} (hs : ∀ p, s.inp p = readyStatus) :
    ∃ fuel t, transfer cmd sector last fuel s = some t ∧ t.rax = 1 ∧ Returns s t := by
  have hd : DrqAwaited drqPolls (transferStatus s) readyStatus := by
    rw [transferStatus, hs]
    exact .now (by decide)
  obtain ⟨m, hm⟩ := call_waitIdeDeviceDrq_of_awaited hd
  obtain ⟨hcount, hne⟩ := loopStart_rcx cmd s readyStatus
  obtain ⟨m', hm'⟩ := transferNxtSect_ready hsec hlast (sectors s.r8 - 1)
  have hpos : sectors s.r8 - 1 + 1 = sectors s.r8 := by
    rw [← hcount]
    have := toNat_sub_one hne
    omega
  obtain ⟨t, ht, hrax⟩ := hm' (max m m') (le_max_right _ _) (loopStart cmd s readyStatus)
    (hcount.trans hpos.symm) (status_loopStart cmd s readyStatus)
  refine ⟨max m m', t, ?_, hrax, ?_⟩
  · have hal : (answered (prepared cmd s) 1 readyStatus).al ≠ 0 := by simp [answered]
    rw [transfer_eq, hm _ (le_max_left _ _) _ _ (status_prepared cmd s), Option.bind_some,
      if_neg hal]
    exact ht
  · rcases transferNxtSect_some hsec hout ht hne with ⟨-, h0⟩ | htr
    · rw [hrax] at h0
      cases h0
    · exact htr.returns

/-! ### Which requests touch just their sectors -/

/-- Every request for `blocks` blocks from `blck` on that reports success touches just
these, whatever the devices answer. -/
def AlwaysExact (io : ℕ → List IdeDev → Machine → BitVec 64 → BitVec 64 → BitVec 64 → BitVec 64 →
    Option DiskResult) (ideDev : List IdeDev) (buffer did blck blocks : BitVec 64) : Prop :=
  ∀ fuel s r, io fuel ideDev s buffer did blck blocks = some r → r.status = .ioOk →
    ∃ ws, r.machine.log = s.log ++ ws ∧ TouchesExactly did.toNat blck blocks ws

lemma toNat_low8_ne_zero {r : BitVec 64} (h : r.setWidth 8 ≠ 0) : r ≠ 0 :=
  fun h0 => h (by rw [h0]; rfl)

/-- The registers at the entry of a transfer. -/
def argsOf (s : Machine) (dev : IdeDev) (buffer blck blocks : BitVec 64) : Machine :=
  { s with
    rdi := dev.ideBus.setWidth 64
    rsi := dev.busDev.setWidth 64
    rdx := buffer
    rcx := blck
    r8 := blocks }

lemma ioDisk_eq {detect : ℕ → ℕ → Detection} {did : BitVec 64} {dev : IdeDev}
    (hdev : (diskIo detect)[did.toNat]? = some dev) (hata : dev.ataDetect = ideAtaDevice)
    (io : ℕ → Machine → Option Machine) (failed : String) (fuel : ℕ) (s : Machine)
    (buffer blck blocks : BitVec 64) :
    ioDisk io failed fuel (diskIo detect) s buffer did blck blocks =
      ((argsOf s dev buffer blck blocks).call 15 (io fuel)).bind fun t =>
        if t.al ≠ 0 then some ⟨.ioOk, t, []⟩
        else some ⟨.ioErr, t,
          [(failed, [(blck.setWidth 32).toInt, (blocks.setWidth 32).toInt])]⟩ := by
  have hdid : ¬ ideDevLetters ≤ did.toNat := not_le.mpr (place_of_diskIo hdev).1
  have hnone : dev.ataDetect ≠ ideNoDevice := by
    rw [hata]
    decide
  rw [ioDisk, if_neg hdid, hdev, Option.bind_eq_bind, Option.bind_some, if_neg hnone]
  rfl

/-- A machine whose devices stay ready. -/
def ready : Machine := { aborted with inp := fun _ => readyStatus }

/-- A request is always exact if and only if the block number fits 28 bits and the count is
between 1 and 256. -/
lemma alwaysExact_iff (hsec : ∀ s, Moved 256 s (sector s)) (hlast : AnswersReady last)
    (hout : OnlyAnswers last) {detect : ℕ → ℕ → Detection} {did : BitVec 64} {dev : IdeDev}
    (hdev : (diskIo detect)[did.toNat]? = some dev) (hata : dev.ataDetect = ideAtaDevice)
    (failed : String) (buffer blck blocks : BitVec 64) :
    AlwaysExact (ioDisk (transfer cmd sector last) failed) (diskIo detect) buffer did blck blocks ↔
      blck.toNat < 2 ^ 28 ∧ 1 ≤ blocks.toNat ∧ blocks.toNat ≤ 256 := by
  obtain ⟨-, hbus, hdevice⟩ := place_of_diskIo hdev
  constructor
  · -- devices that are ready at once let every request succeed, so also one out of range
    intro h
    have hready : ∀ p, ((argsOf ready dev buffer blck blocks).push 15).inp p = readyStatus :=
      fun _ => rfl
    obtain ⟨fuel, t, ht, hrax, hret⟩ := @transfer_ready _ _ cmd hsec hlast hout _ hready
    have htop : t.stack.head? = some 15 := hret.top
    have hcall : (argsOf ready dev buffer blck blocks).call 15 (transfer cmd sector last fuel) =
        some t.drop := by
      exact callOn_of_head ht htop
    have hal : t.drop.al ≠ 0 := by simp [hrax]
    obtain ⟨ws, -, hex⟩ := h fuel ready ⟨.ioOk, t.drop, []⟩
      (by rw [ioDisk_eq hdev hata, hcall, Option.bind_some, if_pos hal]) rfl
    exact hex.bounds
  · rintro ⟨hblck, h1, h2⟩ fuel s r hr hok
    rw [ioDisk_eq hdev hata, Option.bind_eq_some_iff] at hr
    obtain ⟨u, hu, hr⟩ := hr
    obtain ⟨t, ht, rfl⟩ := Machine.of_call_eq_some hu
    split at hr
    case isTrue hal =>
      cases hr
      obtain ⟨ws, hlog, hlen, hws⟩ := log_of_transfer hsec hout ht (toNat_low8_ne_zero hal)
      refine ⟨_, hlog, ?_⟩
      have hsectors : sectors blocks = blocks.toNat := by
        rw [sectors, if_neg]
        rintro rfl
        exact absurd h1 (by decide)
      exact touchesExactly_of_words (congrArg dataPort hbus) hdevice hblck h1 h2
        (hlen.trans (congrArg _ hsectors)) hws
    case isFalse =>
      cases hr
      cases hok

/-- A request to a detected ATA device that reports success selects the device and the
block asked for, and moves as many sectors as its count register stands for and as were
asked for, if and only if the block number fits 28 bits and the count is between 1 and
256. -/
theorem ideRequest_exact_iff {detect : ℕ → ℕ → Detection} {did : BitVec 64} {dev : IdeDev}
    (hdev : (diskIo detect)[did.toNat]? = some dev) (hata : dev.ataDetect = ideAtaDevice)
    (buffer blck blocks : BitVec 64) :
    (AlwaysExact readDisk (diskIo detect) buffer did blck blocks ↔
        blck.toNat < 2 ^ 28 ∧ 1 ≤ blocks.toNat ∧ blocks.toNat ≤ 256) ∧
      (AlwaysExact writeDisk (diskIo detect) buffer did blck blocks ↔
        blck.toNat < 2 ^ 28 ∧ 1 ≤ blocks.toNat ∧ blocks.toNat ≤ 256) :=
  ⟨alwaysExact_iff moved_readSector answersReady_read onlyAnswers_read hdev hata _ _ _ _,
    alwaysExact_iff moved_writeSector answersReady_write onlyAnswers_write hdev hata _ _ _ _⟩

/-- Every place has an ATA device. -/
def allDetected (_ _ : ℕ) : Detection := ⟨ideAtaDevice, fun _ => 0⟩

theorem ideRequest_exact_iff_first :
    (AlwaysExact readDisk (diskIo allDetected) 0 0 5 8 ↔
        (5 : BitVec 64).toNat < 2 ^ 28 ∧ 1 ≤ (8 : BitVec 64).toNat ∧ (8 : BitVec 64).toNat ≤ 256) ∧
      (AlwaysExact writeDisk (diskIo allDetected) 0 0 5 8 ↔
        (5 : BitVec 64).toNat < 2 ^ 28 ∧ 1 ≤ (8 : BitVec 64).toNat ∧ (8 : BitVec 64).toNat ≤ 256) :=
  ideRequest_exact_iff rfl rfl 0 5 8

/-- Block `2 ^ 28` of the master is block 0 of the slave. -/
theorem ideRequest_aliased :
    ¬ AlwaysExact readDisk (diskIo allDetected) 0 0 0x10000000 1 := by
  rw [readDisk, archIdeDeviceRead,
    alwaysExact_iff moved_readSector answersReady_read onlyAnswers_read rfl rfl]
  decide

end EvtDrivenOs.Ide
