/-
What `play` makes of the header that it reads.

The command looks at 44 bytes of the stack, of which a read has replaced as many as it
found.  It goes by the format that these 44 bytes give, so a short read is taken for a
header when what lies behind it on the stack completes it.
-/
import EvtDrivenOs.Sound.Service

namespace EvtDrivenOs.Sound

open EvtDrivenOs.Lib EvtDrivenOs.Fat EvtDrivenOs.Xdma

variable {φ : Type*}

/-- The file that the command opens, if it opens one, and the table then. -/
def playFile (F : FatFs φ) (s : Sb φ) : List String → Option (ℤ × Files φ)
  | _ :: path :: _ =>
    match fatFopen F s.files path F.fileRead with
    | .error _ => none
    | .ok (ifd, files) => if ifd < 0 then none else some (ifd, files)
  | _ => none

/-- The bytes of the header that are read from the file. -/
def headerRead (F : FatFs φ) (ifd : ℤ) (files : Files φ) : List UInt8 :=
  (fatFread F files ifd wavHeaderSize).1

/-- Nothing is handed to the service. -/
structure Unplayed (s s' : Sb φ) : Prop where
  fd : s'.fd = s.fd
  sbPlaycount : s'.sbPlaycount = s.sbPlaycount
  sbPlaysize : s'.sbPlaysize = s.sbPlaysize

lemma Unplayed.trans {s s' s'' : Sb φ} (h : Unplayed s s') (h' : Unplayed s' s'') :
    Unplayed s s'' :=
  ⟨h'.fd.trans h.fd, h'.sbPlaycount.trans h.sbPlaycount, h'.sbPlaysize.trans h.sbPlaysize⟩

/-- What the command is to do: the result and the state after it. -/
inductive PlayOutcome (F : FatFs φ) (s : Sb φ) (argv : List String) : ℤ → Sb φ → Prop
  /-- The header was read in full and has the supported format, and the file is open. -/
  | accepted {s' : Sb φ} (ifd : ℤ) (files : Files φ) (hfile : playFile F s argv = some (ifd, files))
      (hread : wavHeaderSize ≤ (headerRead F ifd files).length)
      (hformat : supportedFormat (headerRead F ifd files) = true) (hfd : s'.fd = ifd)
      (hcount : s'.sbPlaycount = chunkCount (dataSize (headerRead F ifd files)))
      (hsize : s'.sbPlaysize = dataSize (headerRead F ifd files))
      (hopen : ∃ k : Fin 10, ifd = (k : ℕ) ∧ s'.files.openFiles k ≠ none) :
      PlayOutcome F s argv 0 s'
  /-- No file was opened. -/
  | refused {code : ℤ} {s' : Sb φ} (hcode : code ≠ 0) (hfile : playFile F s argv = none)
      (hsame : Unplayed s s') : PlayOutcome F s argv code s'
  /-- The file was closed once, after its header was read. -/
  | closed {code : ℤ} {s' : Sb φ} (ifd : ℤ) (files : Files φ) (hcode : code ≠ 0)
      (hfile : playFile F s argv = some (ifd, files)) (hsame : Unplayed s s')
      (hclose : s'.files = fatFclose F (fatFread F files ifd wavHeaderSize).2 ifd) :
      PlayOutcome F s argv code s'

/-- A file is opened whose header cannot be read in full, and what was read has the supported
format together with the bytes that lie behind it on the stack. -/
def StaleHeader (F : FatFs φ) (s : Sb φ) (argv : List String) (stack : List UInt8) : Prop :=
  ∃ ifd files, playFile F s argv = some (ifd, files) ∧
    (headerRead F ifd files).length < wavHeaderSize ∧
    supportedFormat (headerRead F ifd files ++ stack.drop (headerRead F ifd files).length) = true

/-! ### The fields of a header that was read in full -/

lemma u16At_append {w v : List UInt8} {i : ℕ} (hi : i + 1 < w.length) :
    u16At (w ++ v) i = u16At w i := by
  rw [u16At, u16At, List.getD_append _ _ _ _ (by omega), List.getD_append _ _ _ _ hi]

lemma u32At_append {w v : List UInt8} {i : ℕ} (hi : i + 3 < w.length) :
    u32At (w ++ v) i = u32At w i := by
  rw [u32At, u32At, u16At_append (by omega), u16At_append (by omega)]

lemma supportedFormat_append {w : List UInt8} (hw : wavHeaderSize ≤ w.length) (v : List UInt8) :
    supportedFormat (w ++ v) = supportedFormat w := by
  rw [wavHeaderSize] at hw
  rw [supportedFormat, supportedFormat, dwSampleRate, dwSampleRate, wBitsPerSample, wBitsPerSample,
    wNumChannels, wNumChannels, u32At_append (by omega), u16At_append (by omega),
    u16At_append (by omega)]

lemma dataSize_append {w : List UInt8} (hw : wavHeaderSize ≤ w.length) (v : List UInt8) :
    dataSize (w ++ v) = dataSize w := by
  rw [wavHeaderSize] at hw
  rw [dataSize, dataSize, u32At_append (by omega)]

/-! ### The command -/

variable {F : FatFs φ} {s : Sb φ}

/-- A command that opens no file fails and hands nothing over. -/
lemma sbM_of_no_file (hfiles : FilesInv s.files) {argv : List String} (stack : List UInt8)
    (h : playFile F s argv = none) :
    ∃ s', sbM F s argv stack = .ok (-1, s') ∧ Unplayed s s' := by
  match argv with
  | [] => exact ⟨_, rfl, rfl, rfl, rfl⟩
  | [_] => exact ⟨_, rfl, rfl, rfl, rfl⟩
  | _ :: path :: _ =>
    rcases hfiles.fatFopen_eq F path F.fileRead with ⟨files, hopen, -⟩ | ⟨k, files, hopen, -⟩
    · refine ⟨outString { s with files := files } "unable open an input file\n", ?_, rfl, rfl, rfl⟩
      rw [sbM, hopen]
      rfl
    · -- a descriptor that is returned is not negative
      have hpos : ¬ ((k : ℕ) : ℤ) < 0 := by omega
      rw [playFile, hopen] at h
      simp only [if_neg hpos, reduceCtorEq] at h

/-- A file that the command opens has taken the first free entry. -/
lemma opened_of_playFile (hfiles : FilesInv s.files) {argv : List String} {ifd : ℤ}
    {files : Files φ} (h : playFile F s argv = some (ifd, files)) :
    ∃ k : Fin 10, ifd = (k : ℕ) ∧ Opened s.files files k := by
  match argv with
  | [] => cases h
  | [_] => cases h
  | _ :: path :: _ =>
    rcases hfiles.fatFopen_eq F path F.fileRead with ⟨files', hopen, -⟩ | ⟨k, files', hopen, hk⟩
    · rw [playFile, hopen] at h
      cases h
    · rw [playFile, hopen] at h
      simp only [show ¬ ((k : ℕ) : ℤ) < 0 by omega, if_false, Option.some.injEq, Prod.mk.injEq] at h
      obtain ⟨rfl, rfl⟩ := h
      exact ⟨k, rfl, hk⟩

/-- The command on a file that it has opened. -/
lemma sbM_of_file {argv : List String} {ifd : ℤ} {files : Files φ} (stack : List UInt8)
    (h : playFile F s argv = some (ifd, files)) :
    sbM F s argv stack =
      let r := sbHeader F { s with files := files } ifd stack
      if !supportedFormat r.1 then
        .ok (-1, outString { r.2 with files := fatFclose F r.2.files ifd }
          "input file is not a wav file or has unsupported format\nsupported format: 22 kHz, 8bit, mono\n")
      else .ok (0, sbPlay r.2 ifd r.1) := by
  match argv with
  | [] => cases h
  | [_] => cases h
  | _ :: path :: _ =>
    rw [playFile] at h
    rw [sbM]
    cases hopen : fatFopen F s.files path F.fileRead with
    | error e =>
      rw [hopen] at h
      cases h
    | ok r =>
      rw [hopen] at h
      simp only at h
      split at h
      · cases h
      · next hneg =>
        obtain ⟨rfl, rfl⟩ := h
        exact if_neg hneg

lemma sbM_of_supported {argv : List String} {ifd : ℤ} {files : Files φ} {stack : List UInt8}
    (h : playFile F s argv = some (ifd, files))
    (hformat : supportedFormat (sbHeader F { s with files := files } ifd stack).1 = true) :
    sbM F s argv stack = .ok (0, sbPlay (sbHeader F { s with files := files } ifd stack).2 ifd
      (sbHeader F { s with files := files } ifd stack).1) := by
  rw [sbM_of_file stack h]
  simp only [hformat, Bool.not_true, Bool.false_eq_true, if_false]

/-- A file whose header is refused is closed; nothing is handed over. -/
lemma sbM_of_unsupported {argv : List String} {ifd : ℤ} {files : Files φ} {stack : List UInt8}
    (h : playFile F s argv = some (ifd, files))
    (hformat : supportedFormat (sbHeader F { s with files := files } ifd stack).1 = false) :
    ∃ s', sbM F s argv stack = .ok (-1, s') ∧
      Unplayed (sbHeader F { s with files := files } ifd stack).2 s' ∧
        s'.files = fatFclose F (sbHeader F { s with files := files } ifd stack).2.files ifd := by
  have hok := sbM_of_file stack h
  simp only [hformat, Bool.not_false, if_true] at hok
  exact ⟨_, hok, ⟨rfl, rfl, rfl⟩, rfl⟩

/-- Reading the header hands nothing over, and when the file is closed then, that is all the
closing there is: a second `fat_fclose` finds the entry free. -/
lemma sbHeader_closed {ifd : ℤ} {files : Files φ} {k : Fin 10} (hk : ifd = (k : ℕ))
    (stack : List UInt8) :
    let r := sbHeader F { s with files := files } ifd stack
    Unplayed s r.2 ∧
      fatFclose F r.2.files ifd = fatFclose F (fatFread F files ifd wavHeaderSize).2 ifd := by
  simp only [sbHeader]
  split
  · refine ⟨⟨rfl, rfl, rfl⟩, ?_⟩
    have hfree : (fatFclose F (fatFread F files ifd wavHeaderSize).2 ifd).openFiles k = none := by
      rw [fatFclose_openFiles F _ (hk ▸ fatSlot_natCast k), Function.update_self]
    rw [hk] at hfree ⊢
    exact fatFclose_of_free F hfree
  · exact ⟨⟨rfl, rfl, rfl⟩, rfl⟩

/-- The file stays open when something was read. -/
lemma sbHeader_open {files : Files φ} {k : Fin 10} (hk : Opened s.files files k)
    (stack : List UInt8) (hread : (headerRead F (k : ℕ) files).length ≠ 0) :
    (sbHeader F { s with files := files } (k : ℕ) stack).2.files.openFiles k ≠ none := by
  have hsame := (hk.trans (sameTable_fatFread F files (k : ℕ) wavHeaderSize)).openFiles
  rw [headerRead] at hread
  simp only [sbHeader]
  rw [if_neg hread, hsame, Function.update_self]
  exact Option.some_ne_none _

/-- A short header that the stack completes is played. -/
lemma not_outcome_of_stale {argv : List String} {stack : List UInt8}
    (h : StaleHeader F s argv stack) :
    ¬ ∃ code s', sbM F s argv stack = .ok (code, s') ∧ PlayOutcome F s argv code s' := by
  obtain ⟨ifd, files, hfile, hshort, hformat⟩ := h
  have hok : sbM F s argv stack = .ok (0, _) := sbM_of_supported hfile hformat
  rintro ⟨code, s', hcode, hout⟩
  rw [hok] at hcode
  cases hcode
  cases hout with
  | accepted ifd' files' hfile' hread =>
    rw [hfile] at hfile'
    cases hfile'
    omega
  | refused hne => exact hne rfl
  | closed _ _ hne => exact hne rfl

/-- **The command `play`**, whatever the file, its header and the stack are: it does what it
is to do if and only if the header is not a short one that the stack completes. -/
theorem sbM_outcome_iff (hfiles : FilesInv s.files) (argv : List String) (stack : List UInt8) :
    (∃ code s', sbM F s argv stack = .ok (code, s') ∧ PlayOutcome F s argv code s') ↔
      ¬ StaleHeader F s argv stack := by
  refine ⟨fun hout hstale => not_outcome_of_stale hstale hout, fun hclean => ?_⟩
  cases hfile : playFile F s argv with
  | none =>
    obtain ⟨s', hok, hsame⟩ := sbM_of_no_file hfiles stack hfile
    exact ⟨-1, s', hok, .refused (by decide) hfile hsame⟩
  | some r =>
    obtain ⟨ifd, files⟩ := r
    obtain ⟨k, rfl, hk⟩ := opened_of_playFile hfiles hfile
    cases hformat : supportedFormat (sbHeader F { s with files := files } (k : ℕ) stack).1 with
    | false =>
      obtain ⟨hsame, hclose⟩ := @sbHeader_closed φ F s (k : ℕ) files k rfl stack
      obtain ⟨s', hok, hsame', hclose'⟩ := sbM_of_unsupported hfile hformat
      exact ⟨-1, s', hok, .closed _ files (by decide) hfile (hsame.trans hsame')
        (hclose'.trans hclose)⟩
    | true =>
      have hread : wavHeaderSize ≤ (headerRead F (k : ℕ) files).length := by
        by_contra hshort
        exact hclean ⟨_, files, hfile, Nat.not_le.mp hshort, hformat⟩
      have hopen := sbHeader_open hk stack (Nat.ne_of_gt (Nat.lt_of_lt_of_le (by decide) hread))
      refine ⟨0, _, sbM_of_supported hfile hformat,
        .accepted _ files hfile hread ?_ rfl ?_ ?_ ⟨k, rfl, hopen⟩⟩
      -- what was read is the header, and the stack behind it does not matter
      · exact (supportedFormat_append hread _).symm.trans hformat
      · rw [sbPlay_sbPlaycount]
        exact congrArg chunkCount (dataSize_append hread _)
      · rw [sbPlay_sbPlaysize]
        exact dataSize_append hread _

/-- `play a.wav` on a volume of that file, which has the supported format. -/
theorem sbM_outcome_wav :
    (∃ code s', sbM oneFile sbFresh ["play", "a.wav"] [] = .ok (code, s') ∧
        PlayOutcome oneFile sbFresh ["play", "a.wav"] code s') ↔
      ¬ StaleHeader oneFile sbFresh ["play", "a.wav"] [] :=
  sbM_outcome_iff ⟨rfl, by simp [sbFresh, sbInit, sbZero]⟩ _ _

/-- A volume of an empty file. -/
def emptyFile : FatFs (List UInt8) := { oneFile with fOpen := fun _ _ _ _ => (.frOk, []) }

/-- `play` on an empty file, with a supported header on the stack: the file is closed, and
its descriptor is handed to the service. -/
theorem sbM_plays_closed :
    ¬ ∃ code s', sbM emptyFile sbFresh ["play", "a.wav"] wavFile = .ok (code, s') ∧
      PlayOutcome emptyFile sbFresh ["play", "a.wav"] code s' :=
  not_outcome_of_stale ⟨0, _, rfl, by decide, by decide⟩

end EvtDrivenOs.Sound
