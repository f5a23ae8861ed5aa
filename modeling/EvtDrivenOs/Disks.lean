/-
The glue between FatFs and the disk drivers, over the drivers of both ports.

`get_disk` leaves its argument alone if the port has no such drive, and the glue then goes on
with what its local variable happens to contain.  The number of sectors is copied from a
`size_t`, which on the MicroBlaze is half as wide as an `LBA_t`.
-/
import EvtDrivenOs.Ide.Ready
import EvtDrivenOs.Ide.Volumes
import EvtDrivenOs.Sdcard.Request

namespace EvtDrivenOs

open EvtDrivenOs.Diskio

/-! ### The drives of the IDE driver -/

namespace Ide

open EvtDrivenOs.Lib.X64

/-- The command that writes the cache of the disk. -/
def ideDeviceFlushCacheCmd : BitVec 8 := 0xE7

/-- There is a drive for discs. -/
def ideAtapiDevice : BitVec 8 := 2

/-- The size of a sector of a disc. -/
def ideAtapiSectorBytes : BitVec 64 := 2048

/-- `.ide_device_flush_done` -/
def flushDone (s : Machine) : Option Machine := some { s with rax := s.al.setWidth 64 }

/-- `_arch_ide_device_flush`; `rdi` has the bus and `rsi` the device. -/
def archIdeDeviceFlush (fuel : ℕ) (s : Machine) : Option Machine := do
  let s ← s.call 16 selectIdeController
  let s := { s with rdi := 0 }
  let s := s.setAl (ideDriveHeadMagic.setWidth 8)
  let s := if s.rsi = 0 then s else s.setAl (s.al ||| ideDriveHeadSlave.setWidth 8)
  let s := s.setDi ideDriveHeadReg
  let s ← s.call 17 writeIdeReg
  let s ← s.call 18 ideAtaSpecDelay
  let s ← s.call 19 ideDeviceDisableIrq
  let s ← s.call 20 (waitIdeDeviceReady fuel)
  if s.al = 0 then flushDone s
  else
    let s := s.setAl ideDeviceFlushCacheCmd
    let s := s.setDi ideStatusCommandReg
    let s ← s.call 21 writeIdeReg
    let s ← s.call 22 (waitIdeDeviceNotBusy fuel)
    flushDone s

/-- The driver does not set `num_blocks`. -/
def getDisk (ideDev : List IdeDev) (did : BitVec 64) (disk : DiskT 64) : DiskT 64 :=
  if ideDevLetters ≤ did.toNat then disk -- what it contains is left as it is
  else
    match ideDev[did.toNat]? with
    | none => disk
    | some dev =>
      { disk with
        did := did
        letter := dev.letter
        volume := dev.capacity
        blockSize :=
          if dev.ataDetect = ideAtaDevice then ideAtaSectorBytes
          else if dev.ataDetect = ideAtapiDevice then ideAtapiSectorBytes
          else 0 }

/-- The disk writes its cache. -/
def flushDisk (fuel : ℕ) (ideDev : List IdeDev) (s : Machine) (did : BitVec 64) :
    Option DiskResult :=
  if ideDevLetters ≤ did.toNat then some ⟨.invalid, s, []⟩
  else do
    let dev ← ideDev[did.toNat]?
    if dev.ataDetect = ideNoDevice then some ⟨.notReady, s, []⟩
    else
      let s := { s with
        rdi := dev.ideBus.setWidth 64
        rsi := dev.busDev.setWidth 64 }
      let s ← s.call 23 (archIdeDeviceFlush fuel)
      if s.al ≠ 0 then some ⟨.ioOk, s, []⟩
      else
        some ⟨.ioErr, s, [("[kernel] error: device#%d on ide bus#%d flush data failed",
          [dev.busDev.toNat, dev.ideBus.toNat])]⟩

/-- The machine and the journal after a request. -/
def journaled (s : Machine × List (String × List ℤ)) (r : DiskResult) :
    DiskStatus × Machine × List (String × List ℤ) :=
  (r.status, r.machine, s.2 ++ r.journal)

/-- The port for x86-64, with the drives that `disk_io` has detected. -/
def port (fuel : ℕ) (detect : ℕ → ℕ → Detection) : Port 64 (Machine × List (String × List ℤ)) where
  getDisks := BitVec.ofNat 64 ideDevLetters
  getDisk := getDisk (diskIo detect)
  readDisk buffer did blck blocks s :=
    (readDisk fuel (diskIo detect) s.1 buffer did blck blocks).map (journaled s)
  writeDisk buffer did blck blocks s :=
    (writeDisk fuel (diskIo detect) s.1 buffer did blck blocks).map (journaled s)
  flushDisk did s := (flushDisk fuel (diskIo detect) s.1 did).map (journaled s)

end Ide

/-! ### The drive of the SD card -/

namespace Sdcard

/-- There is no cache on the card to be written. -/
def flushDisk (did : BitVec 32) (s : Sd) : Option (DiskStatus × Sd) :=
  some (if did = maxDisks - 1 then .ioOk else .invalid, s)

/-- The port for the MicroBlaze. -/
def port (fuel : ℕ) (h : SdAnswers) : Port 32 Sd where
  getDisks := maxDisks
  getDisk := getDisk
  readDisk := readDisk fuel h
  writeDisk := writeDisk fuel h
  flushDisk := flushDisk

lemma le_setWidth_iff (pdrv : BitVec 8) : maxDisks ≤ pdrv.setWidth 32 ↔ pdrv ≠ 0 := by
  rw [BitVec.le_def, BitVec.toNat_setWidth, maxDisks]
  constructor
  · rintro h rfl
    exact absurd h (by decide)
  · intro h
    have hpos : pdrv.toNat ≠ 0 := fun h0 => h (BitVec.eq_of_toNat_eq h0)
    have hlt := pdrv.isLt
    bv_omega

/-- The upper half of an `LBA_t` comes from the stack. -/
lemma serve_sectorCount (fuel : ℕ) (h : SdAnswers) (g : Garbage 32) (s : Sd) :
    (port fuel h).serve g 0 (.ioctl getSectorCount) s =
      some (.result .ok (copied sizeofLba (0 : BitVec 32) g.stack), s) := by
  have hget : (port fuel h).getDisk ((0 : BitVec 8).setWidth 32) g.disk = ⟨0, 0, 512, 0, 'C'⟩ := rfl
  rw [Port.serve, diskIoctl_sectorCount, hget]
  rfl

lemma not_determined_sectorCount (fuel : ℕ) (h : SdAnswers) :
    ¬ (port fuel h).Determined 0 (.ioctl getSectorCount) := by
  intro hdet
  have hsame := hdet.same ⟨⟨0, 0, 0, 0, 'A'⟩, fun _ => 0⟩ ⟨⟨0, 0, 0, 0, 'A'⟩, fun _ => 1⟩
    ⟨emptyCache, []⟩
  rw [serve_sectorCount, serve_sectorCount] at hsame
  have hbytes := congrArg Prod.fst (Option.some.inj hsame)
  exact absurd hbytes (by decide)

lemma determined_iff (fuel : ℕ) (h : SdAnswers) (pdrv : BitVec 8) (req : Request 32) :
    (port fuel h).Determined pdrv req ↔ pdrv = 0 ∧ req ≠ .ioctl getSectorCount := by
  by_cases hpdrv : pdrv = 0
  · subst hpdrv
    by_cases hcount : req = .ioctl getSectorCount
    · subst hcount
      exact iff_of_false (not_determined_sectorCount fuel h) fun hc => hc.2 rfl
    · refine iff_of_true ?_ ⟨rfl, hcount⟩
      have hpresent : (0 : BitVec 8).setWidth 32 < maxDisks := by decide
      exact Port.determined_of_described (by decide) (BitVec.not_le.mpr hpresent)
        (fun _ _ => rfl)
        fun hreq => absurd hreq hcount
  · have habsent : maxDisks ≤ pdrv.setWidth 32 := (le_setWidth_iff pdrv).mpr hpdrv
    refine iff_of_false ?_ fun hc => hpdrv hc.1
    refine Port.not_determined_of_untouched habsent (fun dsk => if_pos habsent) ?_ ?_
      ⟨emptyCache, []⟩
    · exact fun _ _ _ _ => if_pos (.inr habsent)
    · exact fun _ _ _ _ => if_pos (.inr habsent)

end Sdcard

namespace Ide

variable {detect : ℕ → ℕ → Detection}

/-- The description of a drive that there is a place for. -/
lemma getDisk_eq {did : BitVec 64} (hdid : did.toNat < 4) (disk : DiskT 64) :
    let dev := entryOf detect did.toNat (Nat.count (Found detect) did.toNat)
    getDisk (diskIo detect) did disk =
      { disk with
        did := did
        letter := dev.letter
        volume := dev.capacity
        blockSize :=
          if dev.ataDetect = ideAtaDevice then ideAtaSectorBytes
          else if dev.ataDetect = ideAtapiDevice then ideAtapiSectorBytes
          else 0 } := by
  have hlt : ¬ ideDevLetters ≤ did.toNat := not_le.mpr hdid
  rw [getDisk, if_neg hlt, diskIo_getElem_of_lt hdid]

/-- A drive has no letter if and only if no device was detected for it. -/
lemma letter_getDisk {did : BitVec 64} (hdid : did.toNat < 4) (disk : DiskT 64) :
    (getDisk (diskIo detect) did disk).letter = Char.ofNat 0 ↔
      (detected detect did.toNat).result = ideNoDevice := by
  rw [getDisk_eq hdid]
  by_cases hf : Found detect did.toNat
  · have hne := ne_noLetter_of_volume (letter_entryOf hdid hf)
    exact iff_of_false hne hf
  · refine iff_of_true ?_ (not_not.mp hf)
    exact if_neg hf

/-- Its block size is set if and only if it is of a kind that the driver knows. -/
lemma blockSize_getDisk {did : BitVec 64} (hdid : did.toNat < 4) (disk : DiskT 64) :
    (getDisk (diskIo detect) did disk).blockSize ≠ 0 ↔
      (detected detect did.toNat).result = ideAtaDevice ∨
        (detected detect did.toNat).result = ideAtapiDevice := by
  rw [getDisk_eq hdid]
  change (if (detected detect did.toNat).result = ideAtaDevice then ideAtaSectorBytes
    else if (detected detect did.toNat).result = ideAtapiDevice then ideAtapiSectorBytes
    else 0) ≠ 0 ↔ _
  split
  case isTrue hata => exact iff_of_true (by decide) (.inl hata)
  case isFalse hata =>
    split
    case isTrue hatapi => exact iff_of_true (by decide) (.inr hatapi)
    case isFalse hatapi => exact iff_of_false (fun h => h rfl) (not_or.mpr ⟨hata, hatapi⟩)

/-- The detection of a drive has one of the results of `_arch_ide_device_detect`. -/
def KnownResult (detect : ℕ → ℕ → Detection) (did : ℕ) : Prop :=
  (detected detect did).result = ideNoDevice ∨ (detected detect did).result = ideAtaDevice ∨
    (detected detect did).result = ideAtapiDevice

lemma determined_iff (fuel : ℕ) (detect : ℕ → ℕ → Detection) (pdrv : BitVec 8)
    (req : Request 64) :
    (port fuel detect).Determined pdrv req ↔
      pdrv.toNat < 4 ∧ (req = .ioctl getSectorCount → KnownResult detect pdrv.toNat) := by
  have hdid : (pdrv.setWidth 64).toNat = pdrv.toNat := by
    rw [BitVec.toNat_setWidth]
    have hlt := pdrv.isLt
    omega
  have hdisks : (port fuel detect).getDisks ≤ pdrv.setWidth 64 ↔ 4 ≤ pdrv.toNat := by
    rw [BitVec.le_def, hdid]
    rfl
  rw [← hdid] at hdisks ⊢
  by_cases hlt : (pdrv.setWidth 64).toNat < 4
  · by_cases hcount : req = .ioctl getSectorCount ∧ ¬ KnownResult detect (pdrv.setWidth 64).toNat
    · -- a device of another kind has sectors of 0 bytes, and their size is divided by
      obtain ⟨rfl, hres⟩ := hcount
      rw [KnownResult, not_or, ← blockSize_getDisk hlt ⟨0, 0, 0, 0, 'A'⟩, not_not] at hres
      refine iff_of_false (fun hdet => ?_) fun hc => ?_
      · refine hdet.divides ⟨⟨0, 0, 0, 0, 'A'⟩, fun _ => 0⟩ (ready, []) (ready, []) ?_
        rw [Port.serve, diskIoctl_sectorCount]
        exact (if_neg ((letter_getDisk hlt _).not.mpr hres.1)).trans (if_pos hres.2)
      · rcases hc.2 rfl with h | h
        · exact hres.1 h
        · exact (blockSize_getDisk hlt _).mpr h hres.2
    · rw [not_and, not_not] at hcount
      refine iff_of_true ?_ ⟨hlt, hcount⟩
      refine Port.determined_of_described (by decide) ?_ ?_ fun hreq g => ?_
      · rw [hdisks]
        exact not_le.mpr hlt
      · intro dsk dsk'
        change (getDisk _ _ _).used = (getDisk _ _ _).used
        rw [getDisk_eq hlt, getDisk_eq hlt]
        rfl
      · exact (hcount hreq).imp (letter_getDisk hlt _).mpr fun h =>
          ⟨(blockSize_getDisk hlt _).mpr h, fun v => copied_eq_lbaBytes v g.stack⟩
  · -- nothing is stored for a drive that the port does not have
    have habsent : ideDevLetters ≤ (pdrv.setWidth 64).toNat := not_lt.mp hlt
    refine iff_of_false ?_ fun hc => hlt hc.1
    refine Port.not_determined_of_untouched (hdisks.mpr habsent) (fun dsk => if_pos habsent) ?_ ?_
      (ready, [])
    · intro buff blck blocks s
      simp only [port, readDisk, ioDisk, if_pos habsent, Option.map_some, journaled,
        List.append_nil]
    · intro buff blck blocks s
      simp only [port, writeDisk, ioDisk, if_pos habsent, Option.map_some, journaled,
        List.append_nil]

end Ide

/-! ### Which requests depend on uninitialised memory -/

/-- A request is free of uninitialised memory if and only if the port has the drive and, on
the MicroBlaze, the request is not one for the number of sectors, or, on x86-64, the number
of sectors is asked of a drive of a known kind. -/
theorem diskGlue_determined_iff (pdrv : BitVec 8) :
    (∀ fuel h req, (Sdcard.port fuel h).Determined pdrv req ↔
        pdrv = 0 ∧ req ≠ .ioctl getSectorCount) ∧
      (∀ fuel detect req, (Ide.port fuel detect).Determined pdrv req ↔
        pdrv.toNat < 4 ∧ (req = .ioctl getSectorCount → Ide.KnownResult detect pdrv.toNat)) :=
  ⟨fun fuel h => Sdcard.determined_iff fuel h pdrv,
    fun fuel detect => Ide.determined_iff fuel detect pdrv⟩

/-- Volume 1 of FatFs is no drive of the MicroBlaze, and yet may be ready; and the number of
sectors of drive 0 is not determined. -/
theorem diskGlue_undetermined :
    ¬ (Sdcard.port 0 Sdcard.idleAnswers).Determined 1 .status ∧
      ¬ (Sdcard.port 0 Sdcard.idleAnswers).Determined 0 (.ioctl getSectorCount) := by
  rw [Sdcard.determined_iff, Sdcard.determined_iff]
  decide

end EvtDrivenOs
