/-
The glue between FatFs and the disk drivers of the ports.

The functions of a port are parameters: how it describes a disk, and how it reads and
writes one.  `w` is the width of its `size_t`.
-/
import Mathlib.Data.BitVec

namespace EvtDrivenOs.Diskio

/-- The results of the disk drivers. -/
inductive DiskStatus where
  | ioOk
  | ioErr
  | invalid
  | notReady
  | writeProtect
deriving DecidableEq

/-- The results that FatFs is given. -/
inductive DResult where
  | ok
  | error
  | wrprt
  | notrdy
  | parerr
deriving DecidableEq

/-- `disk_t` -/
structure DiskT (w : ℕ) where
  did : BitVec w
  numBlocks : BitVec w
  blockSize : BitVec w
  volume : BitVec w
  letter : Char

/-- What the driver returns, in the words of FatFs. -/
def fromDiskioStatus : DiskStatus → DResult
  | .ioOk => .ok
  | .invalid => .parerr
  | .notReady => .notrdy
  | .writeProtect => .wrprt
  | .ioErr => .error

variable {w : ℕ} {σ : Type*}

/-- `check_diskReady`, with `dsk` for what its local variable contains at first. -/
def checkDiskReady (getDisk : BitVec w → DiskT w → DiskT w) (dsk : DiskT w) (pdrv : BitVec 8) :
    Bool :=
  (getDisk (pdrv.setWidth w) dsk).letter != Char.ofNat 0

/-- `disk_read` with `read_disk` for `io`, and `disk_write` with `write_disk`. -/
def diskRequest (getDisk : BitVec w → DiskT w → DiskT w) (dsk : DiskT w)
    (io : BitVec w → BitVec w → BitVec w → BitVec w → σ → Option (DiskStatus × σ))
    (pdrv : BitVec 8) (buff : BitVec w) (sector : BitVec 64) (count : BitVec 32) (s : σ) :
    Option (DResult × σ) :=
  if checkDiskReady getDisk dsk pdrv then
    (io buff (pdrv.setWidth w) (sector.setWidth w) (count.setWidth w) s).map fun r =>
      (fromDiskioStatus r.1, r.2)
  else some (.notrdy, s)

/-- `DSTATUS`, of which `STA_NODISK` is the only flag that is ever set. -/
inductive DStatus where
  | ready
  | noDisk
deriving DecidableEq

/-- `disk_status`, and `disk_initialize`, which calls it. -/
def diskStatus (getDisk : BitVec w → DiskT w → DiskT w) (dsk : DiskT w) (pdrv : BitVec 8) :
    DStatus :=
  if checkDiskReady getDisk dsk pdrv then .ready else .noDisk

/-- The command that waits for the disk. -/
def ctrlSync : BitVec 8 := 0

/-- The command for the number of sectors. -/
def getSectorCount : BitVec 8 := 1

/-- The command for the size of a sector. -/
def getSectorSize : BitVec 8 := 2

/-- `sizeof(LBA_t)`; `FF_LBA64` is 1. -/
def sizeofLba : ℕ := 8

/-- `sizeof(WORD)` -/
def sizeofWord : ℕ := 2

/-- `memcpy` of `n` bytes from a local variable on: its own bytes, the lowest first, and then
those that follow it on the stack. -/
def copied (n : ℕ) (v : BitVec w) (stack : ℕ → BitVec 8) : List (BitVec 8) :=
  (List.range n).map fun i =>
    if i < w / 8 then v.extractLsb' (8 * i) 8 else stack (i - w / 8)

/-- What a call does: it returns, with the bytes that it writes to `buff` itself, or it
divides by zero. -/
inductive Answer where
  | status (st : DStatus)
  | result (res : DResult) (bytes : List (BitVec 8))
  | divideError
deriving DecidableEq

/-- What the uninitialised memory contains: the local variable for the disk, and the bytes
that follow another local variable. -/
structure Garbage (w : ℕ) where
  disk : DiskT w
  stack : ℕ → BitVec 8

/-- `disk_ioctl` -/
def diskIoctl (getDisk : BitVec w → DiskT w → DiskT w)
    (flushDisk : BitVec w → σ → Option (DiskStatus × σ)) (g : Garbage w) (pdrv cmd : BitVec 8)
    (s : σ) : Option (Answer × σ) :=
  let disk := getDisk (pdrv.setWidth w) g.disk
  if disk.letter = Char.ofNat 0 then some (.result .notrdy [], s)
  else if cmd = getSectorCount then
    if disk.blockSize = 0 then some (.divideError, s)
    else
      let blocks := disk.volume / disk.blockSize
      some (.result .ok (copied sizeofLba blocks g.stack), s)
  else if cmd = getSectorSize then
    some (.result .ok (copied sizeofWord disk.blockSize g.stack), s)
  else if cmd = ctrlSync then
    (flushDisk disk.did s).map fun r =>
      (.result (if r.1 ≠ .ioOk then .error else .ok) [], r.2)
  else some (.result .parerr [], s)

/-! ### The requests to a port -/

/-- The functions of a port, of `disk.h`. -/
structure Port (w : ℕ) (σ : Type*) where
  getDisks : BitVec w
  getDisk : BitVec w → DiskT w → DiskT w
  readDisk : BitVec w → BitVec w → BitVec w → BitVec w → σ → Option (DiskStatus × σ)
  writeDisk : BitVec w → BitVec w → BitVec w → BitVec w → σ → Option (DiskStatus × σ)
  flushDisk : BitVec w → σ → Option (DiskStatus × σ)

/-- What FatFs asks of the glue. -/
inductive Request (w : ℕ) where
  | status
  | read (buff : BitVec w) (sector : BitVec 64) (count : BitVec 32)
  | write (buff : BitVec w) (sector : BitVec 64) (count : BitVec 32)
  | ioctl (cmd : BitVec 8)
deriving DecidableEq

namespace Port

/-- The glue answers a request. -/
def serve (p : Port w σ) (g : Garbage w) (pdrv : BitVec 8) : Request w → σ → Option (Answer × σ)
  | .status, s => some (.status (diskStatus p.getDisk g.disk pdrv), s)
  | .read buff sector count, s =>
    (diskRequest p.getDisk g.disk p.readDisk pdrv buff sector count s).map fun r =>
      (.result r.1 [], r.2)
  | .write buff sector count, s =>
    (diskRequest p.getDisk g.disk p.writeDisk pdrv buff sector count s).map fun r =>
      (.result r.1 [], r.2)
  | .ioctl cmd, s => diskIoctl p.getDisk p.flushDisk g pdrv cmd s

end Port

/-- The answer that the drive is not ready. -/
def notReady : Request w → Answer
  | .status => .status .noDisk
  | .read .. => .result .notrdy []
  | .write .. => .result .notrdy []
  | .ioctl _ => .result .notrdy []

/-- The bytes of an `LBA_t`. -/
def lbaBytes (n : ℕ) : List (BitVec 8) :=
  (List.range sizeofLba).map fun i => (BitVec.ofNat 64 n).extractLsb' (8 * i) 8

/-- The request depends on no uninitialised memory.  A drive that the port does not have is
not ready, nothing is divided by zero, and the number of sectors is that of the volume. -/
structure Port.Determined (p : Port w σ) (pdrv : BitVec 8) (req : Request w) : Prop where
  same : ∀ g g' s, p.serve g pdrv req s = p.serve g' pdrv req s
  absent : p.getDisks ≤ pdrv.setWidth w →
    ∀ g s, p.serve g pdrv req s = some (notReady req, s)
  divides : ∀ g s s', p.serve g pdrv req s ≠ some (.divideError, s')
  sectorCount : req = .ioctl getSectorCount → ∀ g s bytes s',
    p.serve g pdrv req s = some (.result .ok bytes, s') →
      let disk := p.getDisk (pdrv.setWidth w) g.disk
      bytes = lbaBytes (disk.volume.toNat / disk.blockSize.toNat)

/-! ### What a request depends on -/

lemma copied_congr {n : ℕ} (hn : 8 * n ≤ w) (v : BitVec w) (stack stack' : ℕ → BitVec 8) :
    copied n v stack = copied n v stack' := by
  refine List.map_congr_left fun i hi => ?_
  have hlt : i < w / 8 := by
    rw [List.mem_range] at hi
    omega
  rw [if_pos hlt, if_pos hlt]

lemma copied_eq_lbaBytes (v : BitVec 64) (stack : ℕ → BitVec 8) :
    copied sizeofLba v stack = lbaBytes v.toNat := by
  refine List.map_congr_left fun i hi => ?_
  rw [if_pos (show i < 64 / 8 from List.mem_range.mp hi), BitVec.ofNat_toNat, BitVec.setWidth_eq]

/-- What the glue uses of a disk. -/
def DiskT.used (disk : DiskT w) : BitVec w × BitVec w × BitVec w × Char :=
  (disk.did, disk.blockSize, disk.volume, disk.letter)

lemma diskIoctl_sectorCount {getDisk : BitVec w → DiskT w → DiskT w}
    {flushDisk : BitVec w → σ → Option (DiskStatus × σ)} {g : Garbage w} {pdrv : BitVec 8} {s : σ} :
    diskIoctl getDisk flushDisk g pdrv getSectorCount s =
      let disk := getDisk (pdrv.setWidth w) g.disk
      if disk.letter = Char.ofNat 0 then some (.result .notrdy [], s)
      else if disk.blockSize = 0 then some (.divideError, s)
      else some (.result .ok (copied sizeofLba (disk.volume / disk.blockSize) g.stack), s) := by
  rw [diskIoctl, if_pos rfl]

/-- The number of sectors of a disk whose block size is set, as the bytes of an `LBA_t`. -/
lemma diskIoctl_sectorCount_of {getDisk : BitVec w → DiskT w → DiskT w}
    {flushDisk : BitVec w → σ → Option (DiskStatus × σ)} {g : Garbage w} {pdrv : BitVec 8} {s : σ}
    (h : (getDisk (pdrv.setWidth w) g.disk).letter = Char.ofNat 0 ∨
      (getDisk (pdrv.setWidth w) g.disk).blockSize ≠ 0 ∧
        ∀ v : BitVec w, copied sizeofLba v g.stack = lbaBytes v.toNat) :
    diskIoctl getDisk flushDisk g pdrv getSectorCount s =
      let disk := getDisk (pdrv.setWidth w) g.disk
      if disk.letter = Char.ofNat 0 then some (.result .notrdy [], s)
      else some (.result .ok (lbaBytes (disk.volume.toNat / disk.blockSize.toNat)), s) := by
  rw [diskIoctl_sectorCount]
  rcases h with h | ⟨hsize, hbytes⟩
  · simp only [if_pos h]
  · simp only [if_neg hsize, hbytes, BitVec.toNat_udiv]

/-- The other commands use just that much of a disk. -/
lemma diskIoctl_congr {getDisk : BitVec w → DiskT w → DiskT w} (hw : 16 ≤ w)
    (flushDisk : BitVec w → σ → Option (DiskStatus × σ)) {g g' : Garbage w} {pdrv cmd : BitVec 8}
    (hget : (getDisk (pdrv.setWidth w) g.disk).used = (getDisk (pdrv.setWidth w) g'.disk).used)
    (hcmd : cmd ≠ getSectorCount) (s : σ) :
    diskIoctl getDisk flushDisk g pdrv cmd s = diskIoctl getDisk flushDisk g' pdrv cmd s := by
  simp only [DiskT.used, Prod.mk.injEq] at hget
  obtain ⟨hdid, hsize, -, hletter⟩ := hget
  have hword : 8 * sizeofWord ≤ w := hw
  simp only [diskIoctl, if_neg hcmd, hdid, hsize, hletter, copied_congr hword _ g.stack g'.stack]

lemma diskIoctl_ne_divideError {getDisk : BitVec w → DiskT w → DiskT w}
    {flushDisk : BitVec w → σ → Option (DiskStatus × σ)} {g : Garbage w} {pdrv cmd : BitVec 8}
    (hcmd : cmd ≠ getSectorCount) (s s' : σ) :
    diskIoctl getDisk flushDisk g pdrv cmd s ≠ some (.divideError, s') := by
  simp only [diskIoctl, if_neg hcmd]
  split
  · nofun
  split
  · nofun
  split
  · intro h
    obtain ⟨r, -, hr⟩ := Option.map_eq_some_iff.mp h
    cases hr
  · nofun

namespace Port

variable {p : Port w σ} {pdrv : BitVec 8} {req : Request w}

/-- A request to a drive that the port leaves alone is at the mercy of its locals. -/
lemma not_determined_of_untouched (habsent : p.getDisks ≤ pdrv.setWidth w)
    (hget : ∀ dsk, p.getDisk (pdrv.setWidth w) dsk = dsk)
    (hread : ∀ buff blck blocks s,
      p.readDisk buff (pdrv.setWidth w) blck blocks s = some (.invalid, s))
    (hwrite : ∀ buff blck blocks s,
      p.writeDisk buff (pdrv.setWidth w) blck blocks s = some (.invalid, s))
    (s : σ) : ¬ p.Determined pdrv req := by
  intro h
  -- there happens to be a letter in the local variable
  have hg := h.absent habsent ⟨⟨0, 0, 0, 0, 'C'⟩, fun _ => 0⟩ s
  have hletter : 'C' ≠ Char.ofNat 0 := by decide
  cases req with
  | status => simp [serve, diskStatus, checkDiskReady, hget, notReady] at hg
  | read buff sector count =>
    simp [serve, diskRequest, checkDiskReady, hget, hread, notReady, fromDiskioStatus] at hg
  | write buff sector count =>
    simp [serve, diskRequest, checkDiskReady, hget, hwrite, notReady, fromDiskioStatus] at hg
  | ioctl cmd =>
    by_cases hcount : cmd = getSectorCount
    · simp [serve, hcount, diskIoctl_sectorCount, hget, notReady] at hg
    · simp only [serve, diskIoctl, hget, if_neg hletter, if_neg hcount, notReady] at hg
      split at hg
      · cases hg
      split at hg
      · obtain ⟨r, -, hr⟩ := Option.map_eq_some_iff.mp hg
        have hres := congrArg Prod.fst hr
        split at hres <;> cases hres
      · cases hg

/-- A request to a drive that the port describes. -/
lemma determined_of_described (hw : 16 ≤ w) (hpresent : ¬ p.getDisks ≤ pdrv.setWidth w)
    (hget : ∀ dsk dsk', (p.getDisk (pdrv.setWidth w) dsk).used =
      (p.getDisk (pdrv.setWidth w) dsk').used)
    (hcount : req = .ioctl getSectorCount → ∀ g : Garbage w,
      (p.getDisk (pdrv.setWidth w) g.disk).letter = Char.ofNat 0 ∨
        (p.getDisk (pdrv.setWidth w) g.disk).blockSize ≠ 0 ∧
          ∀ v : BitVec w, copied sizeofLba v g.stack = lbaBytes v.toNat) :
    p.Determined pdrv req := by
  have hletter (dsk dsk' : DiskT w) : (p.getDisk (pdrv.setWidth w) dsk).letter =
      (p.getDisk (pdrv.setWidth w) dsk').letter :=
    congrArg (fun u : BitVec w × BitVec w × BitVec w × Char => u.2.2.2) (hget dsk dsk')
  have hready (dsk dsk' : DiskT w) :
      checkDiskReady p.getDisk dsk pdrv = checkDiskReady p.getDisk dsk' pdrv := by
    rw [checkDiskReady, checkDiskReady, hletter dsk dsk']
  -- all that is read of the local variable is what the port has stored in it
  constructor
  · intro g g' s
    cases req with
    | status => simp only [serve, diskStatus, hready g.disk g'.disk]
    | read buff sector count => simp only [serve, diskRequest, hready g.disk g'.disk]
    | write buff sector count => simp only [serve, diskRequest, hready g.disk g'.disk]
    | ioctl cmd =>
      by_cases hcmd : cmd = getSectorCount
      · subst hcmd
        obtain ⟨-, hsize, hvolume, -⟩ : _ ∧ _ ∧ _ ∧ _ := by
          simpa only [DiskT.used, Prod.mk.injEq] using hget g.disk g'.disk
        simp only [serve, diskIoctl_sectorCount_of (hcount rfl _), hletter g.disk g'.disk, hsize,
          hvolume]
      · exact diskIoctl_congr hw p.flushDisk (hget g.disk g'.disk) hcmd s
  · exact fun habsent => absurd habsent hpresent
  · intro g s s'
    cases req with
    | status => nofun
    | read buff sector count =>
      intro h
      obtain ⟨r, -, hr⟩ := Option.map_eq_some_iff.mp h
      cases hr
    | write buff sector count =>
      intro h
      obtain ⟨r, -, hr⟩ := Option.map_eq_some_iff.mp h
      cases hr
    | ioctl cmd =>
      by_cases hcmd : cmd = getSectorCount
      · subst hcmd
        rw [serve, diskIoctl_sectorCount_of (hcount rfl g)]
        dsimp only
        split <;> nofun
      · exact diskIoctl_ne_divideError hcmd s s'
  · rintro rfl g s bytes s' h
    rw [serve, diskIoctl_sectorCount_of (hcount rfl g)] at h
    dsimp only at h
    split at h
    · cases h
    · cases h
      rfl

end Port

end EvtDrivenOs.Diskio
