/-
The sound service `services/sb_service.c`: the state machine `sb_service` and the
shell command `sb_m` that starts the playback of a file.

The kernel's signal set is an input of a tick: `pending` tells whether `SIGINT` or
`SIGBUS` is pending.  The header that `sb_m` reads lies on the stack; `stack` is
what lies there before, since a short read leaves the rest of it as it was.
-/
import EvtDrivenOs.Fat.Table
import EvtDrivenOs.Xdma.Sound

namespace EvtDrivenOs.Sound

open EvtDrivenOs.Lib EvtDrivenOs.Fat EvtDrivenOs.Xdma

/-- The states of the service.  `sb_reg` takes no other value. -/
inductive SbReg
  | sbInit
  | sbIdle
  | sbWait
  | sbWrite
  | sbClose
deriving DecidableEq, Repr

/-- The sample that is silence. -/
def sbSSample : UInt8 := 0x80

/-- The size of the buffer. -/
def sbMaxBuffer : UInt32 := 16384

/-- A half of it, what is read at a time. -/
def sbBuffChunk : UInt32 := 8192

/-- The static variables of the service, with what it works on: the driver, the table of
open files, the kernel's journal and the console, the latest text first. -/
structure Sb (φ : Type*) where
  fd : ℤ := 0
  sbReg : SbReg := .sbInit
  sbPlaysize : UInt32 := 0
  sbPlaycount : UInt32 := 0
  drv : State
  files : Files φ
  jrnl : List String := []
  console : List String := []

variable {φ : Type*}

/-! ### The state machine -/

/-- `_kernel_jentry`. -/
def jentry (s : Sb φ) (text : String) : Sb φ := { s with jrnl := text :: s.jrnl }

/-- `memset` in a buffer. -/
def memset (s : Sb φ) (a : ℕ) (c : UInt8) (n : ℕ) : Sb φ :=
  { s with drv := { s.drv with ram := store s.drv.ram a (List.replicate n c) } }

/-- The state `SB_INIT`. -/
def sbInit (s : Sb φ) : Sb φ :=
  { s with fd := -1, sbPlaysize := 0, sbPlaycount := 0, sbReg := .sbIdle }

/-- The state `SB_CLOSE`, which goes on to `SB_INIT` at once. -/
def sbClose (F : FatFs φ) (s : Sb φ) : Sb φ :=
  -- the file is closed first, then the engine is stopped
  let s := { s with sbReg := .sbInit, files := fatFclose F s.files s.fd }
  let s := { s with drv := sbdmaSgstop s.drv }
  sbInit (jentry s "sb_svc: play file closed and DMA stopped")

/-- The state `SB_IDLE`. -/
def sbIdle (F : FatFs φ) (s : Sb φ) : Except Fault (Sb φ) :=
  if s.fd < 0 then .ok { s with sbReg := .sbIdle }
  else
    let s := { s with sbPlaycount := s.sbPlaycount + 1, sbReg := .sbWait }
    match sbdmaSgcyclic s.drv sbSSample sbMaxBuffer sbBuffChunk with
    | .error e => .error e
    | .ok (none, drv) => .ok (sbClose F { s with drv := drv, sbReg := .sbClose })
    | .ok (some _, drv) => .ok { s with drv := drv }

/-- The number of bytes that `SB_WRITE` asks for. -/
def sbReadsize (s : Sb φ) : UInt32 :=
  if s.sbPlaysize > sbBuffChunk then sbBuffChunk else s.sbPlaysize

/-- The end of `SB_WRITE`, when `nRead` bytes were read to `buffer`: pads with silence, or
closes when nothing was read and nothing is left to play. -/
def sbWritten (F : FatFs φ) (s : Sb φ) (buffer nRead : ℕ) : Sb φ :=
  if nRead = 0 then
    if s.sbPlaycount = 0 then
      jentry (sbClose F { s with sbReg := .sbClose }) "sb_svc: playback OK"
    else memset s buffer sbSSample sbBuffChunk.toNat
  else if nRead < sbBuffChunk.toNat then
    memset s (buffer + nRead) sbSSample (sbBuffChunk.toNat - nRead)
  else s

/-- The state `SB_WRITE`: refills the buffer that was played. -/
def sbWrite (F : FatFs φ) (s : Sb φ) : Sb φ :=
  let s := { s with sbReg := .sbWait }
  let r := sbdmaSgcmplt s.drv sbBuffChunk
  let s := { s with drv := r.2 }
  match r.1 with
  | none =>
    jentry (sbClose F { s with sbReg := .sbClose }) "sb_svc: cannot write. DMA gave NULL buffer"
  | some buffer =>
    let rd := fatFread F s.files s.fd (sbReadsize s).toNat
    let nRead := rd.1.length
    sbWritten F
      { s with
        files := rd.2
        drv := { s.drv with ram := store s.drv.ram buffer rd.1 }
        sbPlaysize := s.sbPlaysize - UInt32.ofNat nRead } buffer nRead

/-- `SB_WAIT` has seen a completion and goes on to `SB_WRITE`. -/
def sbSeen (s : Sb φ) : Sb φ := { s with sbReg := .sbWrite, sbPlaycount := s.sbPlaycount - 1 }

/-- The state `SB_WAIT`. -/
def sbWait (F : FatFs φ) (s : Sb φ) (pending : Bool) : Sb φ :=
  let s := { s with sbReg := .sbWait }
  if !pending then s
  else
    let sbSgl := s.drv.sgdmaSgls.sbdmaBuserr || s.drv.sgdmaSgls.sbdmaCmplt
    -- a bus error is answered by the next tick, a completion at once
    if sbSgl && s.drv.sgdmaSgls.sbdmaBuserr then
      jentry { s with sbReg := .sbClose } "sb_svc: DMA bus error occured"
    else if sbSgl && s.drv.sgdmaSgls.sbdmaCmplt then
      sbWrite F (sbSeen s)
    else s

/-- A tick of the service. -/
def sbService (F : FatFs φ) (s : Sb φ) (pending : Bool) : Except Fault (Sb φ) :=
  match s.sbReg with
  | .sbInit => .ok (sbInit s)
  | .sbIdle => sbIdle F s
  | .sbWait => .ok (sbWait F s pending)
  | .sbWrite => .ok (sbWrite F s)
  | .sbClose => .ok (sbClose F s)

/-! ### The command -/

/-- `sizeof(wavfile_t)`. -/
def wavHeaderSize : ℕ := 44

/-- The 16-bit number at an offset of the header. -/
def u16At (w : List UInt8) (i : ℕ) : ℕ := (w.getD i 0).toNat + 256 * (w.getD (i + 1) 0).toNat

/-- The 32-bit number at an offset of the header. -/
def u32At (w : List UInt8) (i : ℕ) : ℕ := u16At w i + 65536 * u16At w (i + 2)

/-! The fields of the header that are used, at their offsets. -/

/-- The number of channels in the header. -/
def wNumChannels (w : List UInt8) : ℕ := u16At w 22

/-- The sample rate in the header. -/
def dwSampleRate (w : List UInt8) : ℕ := u32At w 24

/-- The size of a sample in the header. -/
def wBitsPerSample (w : List UInt8) : ℕ := u16At w 34

/-- The size of the data in the header. -/
def dataSize (w : List UInt8) : UInt32 := UInt32.ofNat (u32At w 40)

/-- `KHZ_22_AND_8BIT_MONO_SAMPLES`. -/
def supportedFormat (w : List UInt8) : Bool :=
  dwSampleRate w = 22050 && wBitsPerSample w = 8 && wNumChannels w = 1

/-- `_kernel_outString`. -/
def outString (s : Sb φ) (text : String) : Sb φ := { s with console := text :: s.console }

/-- The number of chunks for `samples_size` bytes, and one more for silence. -/
def chunkCount (samplesSize : UInt32) : UInt32 :=
  let playcount := samplesSize / sbBuffChunk
  let playcount := if samplesSize % sbBuffChunk > 0 then playcount + 1 else playcount
  playcount + 1

/-- Reads the header of the opened file.  When nothing is read the file is closed, but the
command goes on with what lies on the stack. -/
def sbHeader (F : FatFs φ) (s : Sb φ) (ifd : ℤ) (stack : List UInt8) : List UInt8 × Sb φ :=
  let rd := fatFread F s.files ifd wavHeaderSize
  let s := { s with files := rd.2 }
  (rd.1 ++ stack.drop rd.1.length,
    if rd.1.length = 0 then
      outString { s with files := fatFclose F s.files ifd } "failed read input file\n"
    else s)

/-- Hands the file to the service. -/
def sbPlay (s : Sb φ) (ifd : ℤ) (w : List UInt8) : Sb φ :=
  let samplesSize := dataSize w
  let size := samplesSize.toInt32
  let rate := dwSampleRate w
  let bits := wBitsPerSample w
  let channels := if wNumChannels w = 1 then "mono" else "stereo"
  let s := outString s s!"audio samples size: {size}\n"
  let s := outString s s!"audio format: {rate} Hz, {bits}bit, {channels}\n"
  let s := outString s "playing...\n"
  { s with fd := ifd, sbPlaycount := chunkCount samplesSize, sbPlaysize := samplesSize }

/-- The shell command `play`. -/
def sbM (F : FatFs φ) (s : Sb φ) (argv : List String) (stack : List UInt8) :
    Except Fault (ℤ × Sb φ) :=
  match argv with
  | _ :: path :: _ =>
    match fatFopen F s.files path F.fileRead with
    | .error e => .error e
    | .ok (ifd, files) =>
      let s := { s with files := files }
      if ifd < 0 then .ok (-1, outString s "unable open an input file\n")
      else
        let r := sbHeader F s ifd stack
        let w := r.1
        let s := r.2
        if !supportedFormat w then
          .ok (-1, outString { s with files := fatFclose F s.files ifd }
            "input file is not a wav file or has unsupported format\nsupported format: 22 kHz, 8bit, mono\n")
        else .ok (0, sbPlay s ifd w)
  | _ => .ok (-1, outString s "no file given\n")

/-- The header that `play path` looks at. -/
def playHeader (F : FatFs φ) (s : Sb φ) (path : String) (stack : List UInt8) : List UInt8 :=
  match fatFopen F s.files path F.fileRead with
  | .error _ => stack
  | .ok (ifd, files) => (sbHeader F { s with files := files } ifd stack).1

section Play

variable (s : Sb φ) (ifd : ℤ) (w : List UInt8)

@[simp] lemma sbPlay_fd : (sbPlay s ifd w).fd = ifd := rfl

@[simp] lemma sbPlay_sbReg : (sbPlay s ifd w).sbReg = s.sbReg := rfl

@[simp] lemma sbPlay_sbPlaycount : (sbPlay s ifd w).sbPlaycount = chunkCount (dataSize w) := rfl

@[simp] lemma sbPlay_sbPlaysize : (sbPlay s ifd w).sbPlaysize = dataSize w := rfl

end Play

@[simp] lemma sbHeader_fd (F : FatFs φ) (s : Sb φ) (ifd : ℤ) (stack : List UInt8) :
    (sbHeader F s ifd stack).2.fd = s.fd := by
  simp only [sbHeader]
  split <;> rfl

@[simp] lemma sbHeader_sbReg (F : FatFs φ) (s : Sb φ) (ifd : ℤ) (stack : List UInt8) :
    (sbHeader F s ifd stack).2.sbReg = s.sbReg := by
  simp only [sbHeader]
  split <;> rfl

/-- What an accepted command leaves to the service. -/
lemma sbM_accepted {F : FatFs φ} {s s' : Sb φ} {cmd path : String} {args : List String}
    {stack : List UInt8} (h : sbM F s (cmd :: path :: args) stack = .ok (0, s')) :
    s'.sbReg = s.sbReg ∧ (∃ k, fatSlot s'.fd = some k) ∧
      s'.sbPlaycount = chunkCount (dataSize (playHeader F s path stack)) ∧
      s'.sbPlaysize = dataSize (playHeader F s path stack) := by
  rw [sbM] at h
  split at h
  · simp at h
  · next ifd files hopen =>
    simp only at h
    split at h
    · simp at h
    · next hifd =>
      split at h
      · simp at h
      · obtain ⟨-, rfl⟩ := Prod.mk.inj (Except.ok.inj h)
        have hheader : playHeader F s path stack =
            (sbHeader F { s with files := files } ifd stack).1 := by rw [playHeader, hopen]
        simp only [sbPlay_sbReg, sbHeader_sbReg, sbPlay_fd, sbPlay_sbPlaycount, sbPlay_sbPlaysize,
          hheader]
        exact ⟨trivial, fatSlot_of_fatFopen hopen (not_lt.1 hifd), trivial, trivial⟩

/-! ### What a tick does -/

section Tick

variable (F : FatFs φ) (s : Sb φ)

variable {F s}

/-- The tick finds a completion to serve. -/
def Serves (s : Sb φ) (pending : Bool) : Prop :=
  s.sbReg = .sbWait ∧ pending = true ∧ s.drv.sgdmaSgls.sbdmaCmplt = true ∧
    s.drv.sgdmaSgls.sbdmaBuserr = false

instance (s : Sb φ) (pending : Bool) : Decidable (Serves s pending) :=
  inferInstanceAs (Decidable (_ ∧ _ ∧ _ ∧ _))

/-- A tick that serves a completion counts it and refills a buffer. -/
lemma sbService_of_serves {pending : Bool} (h : Serves s pending) :
    sbService F s pending = .ok (sbWrite F (sbSeen s)) := by
  obtain ⟨hreg, hpending, hcmplt, hbuserr⟩ := h
  simp only [sbService, hreg, sbWait, hpending, hcmplt, hbuserr]
  rfl

/-- Without a bus error the other ticks in `SB_WAIT` do nothing. -/
lemma sbService_of_not_serves {pending : Bool} (hreg : s.sbReg = .sbWait)
    (hbuserr : s.drv.sgdmaSgls.sbdmaBuserr = false) (h : ¬ Serves s pending) :
    sbService F s pending = .ok s := by
  have hsame : { s with sbReg := .sbWait } = s := by rw [← hreg]
  simp only [sbService, hreg, sbWait, hbuserr]
  cases pending with
  | false => exact congrArg _ hsame
  | true =>
    have hcmplt : s.drv.sgdmaSgls.sbdmaCmplt = false := by
      rw [← Bool.not_eq_true]
      exact fun hc => h ⟨hreg, rfl, hc, hbuserr⟩
    simp only [hcmplt]
    exact congrArg _ hsame

/-- The outcome of a refill: the service goes on with other bytes in the buffer, or it has
closed because nothing was read and nothing is left to play. -/
lemma sbWritten_cases (F : FatFs φ) (s : Sb φ) (b n : ℕ) :
    (∃ m, (sbWritten F s b n).sbReg = s.sbReg ∧ (sbWritten F s b n).drv = { s.drv with ram := m }) ∨
      (sbWritten F s b n).sbReg = .sbIdle ∧ (sbWritten F s b n).fd = -1 ∧
        (sbWritten F s b n).drv = sbdmaSgstop s.drv := by
  unfold sbWritten
  split
  · split
    · exact Or.inr ⟨rfl, rfl, rfl⟩
    · exact Or.inl ⟨_, rfl, rfl⟩
  · split
    · exact Or.inl ⟨_, rfl, rfl⟩
    · exact Or.inl ⟨s.drv.ram, rfl, rfl⟩

/-- `SB_WRITE` when it was handed a buffer. -/
lemma sbWrite_eq {b : ℕ} {d : State} {bytes : List UInt8} {files : Files φ}
    (hbuf : sbdmaSgcmplt s.drv sbBuffChunk = (some b, d))
    (hread : fatFread F s.files s.fd (sbReadsize s).toNat = (bytes, files)) :
    sbWrite F s = sbWritten F
      { s with
        sbReg := .sbWait
        files := files
        drv := { d with ram := store d.ram b bytes }
        sbPlaysize := s.sbPlaysize - UInt32.ofNat bytes.length } b bytes.length := by
  have heq : sbWrite F s =
      let rd := fatFread F s.files s.fd (sbReadsize s).toNat
      sbWritten F
        { s with
          sbReg := .sbWait
          files := rd.2
          drv := { d with ram := store d.ram b rd.1 }
          sbPlaysize := s.sbPlaysize - UInt32.ofNat rd.1.length } b rd.1.length := by
    simp only [sbWrite, hbuf]
    rfl
  rw [heq, hread]

lemma sbWrite_cases {b : ℕ} {d : State} (h : sbdmaSgcmplt s.drv sbBuffChunk = (some b, d)) :
    (∃ m, (sbWrite F s).sbReg = .sbWait ∧ (sbWrite F s).drv = { d with ram := m }) ∨
      (sbWrite F s).sbReg = .sbIdle ∧ (sbWrite F s).fd = -1 ∧
        ∃ m, (sbWrite F s).drv = sbdmaSgstop { d with ram := m } := by
  rcases hread : fatFread F s.files s.fd (sbReadsize s).toNat with ⟨bytes, files⟩
  rw [sbWrite_eq h hread]
  rcases sbWritten_cases F _ b bytes.length with ⟨m, hreg, hdrv⟩ | ⟨hreg, hfd, hdrv⟩
  · exact Or.inl ⟨m, hreg, hdrv⟩
  · exact Or.inr ⟨hreg, hfd, _, hdrv⟩

/-- A closed service stays idle. -/
lemma sbService_of_idle {pending : Bool} (hreg : s.sbReg = .sbIdle) (hfd : s.fd < 0) :
    sbService F s pending = .ok s := by
  have hsame : { s with sbReg := .sbIdle } = s := by rw [← hreg]
  simp only [sbService, hreg, sbIdle, if_pos hfd, hsame]

/-- A tick that starts the playback. -/
lemma sbService_start {pending : Bool} {s' : Sb φ} (hidle : s.sbReg = .sbIdle)
    (h : sbService F s pending = .ok s') (hplay : s'.sbReg = .sbWait) :
    0 ≤ s.fd ∧ ∃ buf d, sbdmaSgcyclic s.drv sbSSample sbMaxBuffer sbBuffChunk = .ok (some buf, d) ∧
      s' = { s with sbPlaycount := s.sbPlaycount + 1, sbReg := .sbWait, drv := d } := by
  simp only [sbService, hidle, sbIdle] at h
  split at h
  · obtain rfl := Except.ok.inj h
    simp at hplay
  · next hfd =>
    refine ⟨not_lt.1 hfd, ?_⟩
    split at h
    · simp at h
    · obtain rfl := Except.ok.inj h
      exact SbReg.noConfusion hplay
    · next buf d hcyclic =>
      exact ⟨buf, d, hcyclic, (Except.ok.inj h).symm⟩

end Tick

/-! ### A volume of one file -/

/-- A file in the supported format that declares three samples and has them. -/
def wavFile : List UInt8 :=
  List.replicate 22 0 ++ [1, 0, 0x22, 0x56, 0, 0] ++ List.replicate 6 0 ++ [8, 0] ++
    List.replicate 4 0 ++ [3, 0, 0, 0] ++ [1, 2, 3]

/-- A volume of this file alone; the state is what is left to read since it was opened. -/
def oneFile : FatFs (List UInt8) where
  fileRead := 1
  fMount fs _ := (.frOk, fs)
  fUnmount fs _ := (.frOk, fs)
  fOpen _ _ _ _ := (.frOk, wavFile)
  fClose fs _ := (.frOk, fs)
  fRead fs _ n := (.frOk, fs.take n, fs.drop n)

/-- The service before its first tick, and no file open. -/
def sbZero : Sb (List UInt8) where
  drv := {}
  files := { files := 0, openFiles := fun _ => none, errorCode := .fatOk, fs := [] }

/-- The idle service. -/
def sbFresh : Sb (List UInt8) := sbInit sbZero

/-- The service after the command has accepted this file. -/
def sbOpened : Sb (List UInt8) :=
  match sbM oneFile sbFresh ["play", "a.wav"] [] with
  | .ok (_, s) => s
  | .error _ => sbFresh

lemma sbOpened_eq : sbM oneFile sbFresh ["play", "a.wav"] [] = .ok (0, sbOpened) := rfl

/-- The service after the tick that starts the playback. -/
def sbBoot : Sb (List UInt8) :=
  match sbService oneFile sbOpened false with
  | .ok s => s
  | .error _ => sbOpened

lemma sbBoot_eq : sbService oneFile sbOpened false = .ok sbBoot := rfl

end EvtDrivenOs.Sound
