/-
The descriptors of the player.

The command `play` opens a file and hands its descriptor to the service in `fd`, and
the service closes it and sets `fd` to -1.  The command does not look at `fd`: what it
overwrites there is lost.  And a file whose header cannot be read is closed, but its
descriptor is handed over all the same when the header on the stack is a supported
one.  Everything else keeps the descriptors that the player opened and did not close
equal to the one in `fd`.
-/
import EvtDrivenOs.Sound.Service

namespace EvtDrivenOs.Sound

open EvtDrivenOs.Lib EvtDrivenOs.Fat EvtDrivenOs.Xdma

variable {φ : Type*}

/-- The descriptors that are open now and were not open at the start. -/
def playerFds (files₀ files : Files φ) : Finset (Fin 10) :=
  usedSlots files.openFiles \ usedSlots files₀.openFiles

/-- The player has opened the descriptor in `fd`, and no other, and has not closed any that
it did not open. -/
structure NoLeak (files₀ : Files φ) (s : Sb φ) : Prop where
  /-- A descriptor is a number, `-1` for none. -/
  fd : -1 ≤ s.fd
  /-- With no descriptor kept, no file of the player is open. -/
  none_open : s.fd = -1 → playerFds files₀ s.files = ∅
  /-- Otherwise the file behind the descriptor is the only one. -/
  one_open : 0 ≤ s.fd → ∃ k : Fin 10, s.fd = (k : ℕ) ∧ playerFds files₀ s.files = {k}
  /-- The files that others have opened stay open. -/
  none_stolen : usedSlots files₀.openFiles ⊆ usedSlots s.files.openFiles

lemma noLeak_iff {files₀ : Files φ} {s : Sb φ} :
    NoLeak files₀ s ↔
      s.fd = -1 ∧ usedSlots s.files.openFiles = usedSlots files₀.openFiles ∨
        ∃ k : Fin 10, k ∉ usedSlots files₀.openFiles ∧ s.fd = (k : ℕ) ∧
          usedSlots s.files.openFiles = insert k (usedSlots files₀.openFiles) := by
  constructor
  · intro h
    rcases eq_or_ne s.fd (-1) with hfd | hfd
    · have hsub := Finset.sdiff_eq_empty_iff_subset.1 (h.none_open hfd)
      exact Or.inl ⟨hfd, hsub.antisymm h.none_stolen⟩
    · have hle := h.fd
      obtain ⟨k, hk, hone⟩ := h.one_open (by omega)
      have hmem : k ∈ playerFds files₀ s.files := by
        rw [hone]
        exact Finset.mem_singleton_self k
      refine Or.inr ⟨k, (Finset.mem_sdiff.1 hmem).2, hk, ?_⟩
      rw [← Finset.sdiff_union_of_subset h.none_stolen, ← playerFds, hone, Finset.insert_eq]
  · rintro (⟨hfd, hused⟩ | ⟨k, hk, hfd, hused⟩)
    · refine ⟨hfd.ge, fun _ => ?_, fun hpos => ?_, hused.ge⟩
      · rw [playerFds, hused, Finset.sdiff_self]
      · omega
    · refine ⟨by omega, fun hneg => by omega, fun _ => ⟨k, hfd, ?_⟩, ?_⟩
      · rw [playerFds, hused, Finset.insert_sdiff_of_notMem _ hk, Finset.sdiff_self,
          Finset.insert_eq, Finset.union_empty]
      · rw [hused]
        exact Finset.subset_insert _ _

/-! ### Ticks -/

/-- What a tick may do to the player's file: it leaves it open, or closes it. -/
inductive FdStep (F : FatFs φ) (s s' : Sb φ) : Prop
  | keeps (hfd : s'.fd = s.fd) (hsame : SameTable s.files s'.files)
  | closes (files : Files φ) (hsame : SameTable s.files files)
      (hclose : s'.files = fatFclose F files s.fd) (hfd : s'.fd = -1)

variable {F : FatFs φ} {s : Sb φ}

lemma sbClose_fdStep (F : FatFs φ) (s : Sb φ) : FdStep F s (sbClose F s) :=
  .closes s.files (SameTable.refl _) rfl rfl

lemma sbWritten_fdStep (F : FatFs φ) (s : Sb φ) (b n : ℕ) (h : s.sbReg = .sbWait) :
    FdStep F s (sbWritten F s b n) ∧ (sbWritten F s b n).sbReg ≠ .sbInit := by
  have hwait : s.sbReg ≠ .sbInit := by
    rw [h]
    decide
  unfold sbWritten
  split
  · split
    · exact ⟨.closes s.files (SameTable.refl _) rfl rfl, SbReg.noConfusion⟩
    · exact ⟨.keeps rfl (SameTable.refl _), hwait⟩
  · split
    · exact ⟨.keeps rfl (SameTable.refl _), hwait⟩
    · exact ⟨.keeps rfl (SameTable.refl _), hwait⟩

lemma FdStep.of_sameTable {s s' s'' : Sb φ} (h : FdStep F s' s'') (hfd : s'.fd = s.fd)
    (hsame : SameTable s.files s'.files) : FdStep F s s'' := by
  cases h with
  | keeps hfd' hsame' => exact .keeps (hfd'.trans hfd) (hsame.trans hsame')
  | closes files hsame' hclose hfd' =>
    exact .closes files (hsame.trans hsame') (by rw [hclose, hfd]) hfd'

lemma sbWrite_fdStep (F : FatFs φ) (s : Sb φ) :
    FdStep F s (sbWrite F s) ∧ (sbWrite F s).sbReg ≠ .sbInit := by
  unfold sbWrite
  simp only
  split
  · exact ⟨.closes s.files (SameTable.refl _) rfl rfl, SbReg.noConfusion⟩
  · refine ⟨(sbWritten_fdStep F _ _ _ ?_).1.of_sameTable rfl (sameTable_fatFread _ _ _ _),
      (sbWritten_fdStep F _ _ _ ?_).2⟩
    · rfl
    · rfl

/-- After the first tick every tick succeeds and leaves the file open or closes it. -/
lemma sbService_fdStep (F : FatFs φ) (s : Sb φ) (pending : Bool) (hreg : s.sbReg ≠ .sbInit) :
    ∃ s', sbService F s pending = .ok s' ∧ s'.sbReg ≠ .sbInit ∧ FdStep F s s' := by
  cases h : s.sbReg with
  | sbInit => exact absurd h hreg
  | sbIdle =>
    obtain ⟨⟨buf, d⟩, hcyclic⟩ := sbdmaSgcyclic_total s.drv sbSSample
    simp only [sbService, h, sbIdle, sbMaxBuffer, sbBuffChunk, hcyclic]
    split
    · exact ⟨_, rfl, SbReg.noConfusion, .keeps rfl (SameTable.refl _)⟩
    · cases buf with
      | none =>
        exact ⟨_, rfl, SbReg.noConfusion, .closes s.files (SameTable.refl _) rfl rfl⟩
      | some _ => exact ⟨_, rfl, SbReg.noConfusion, .keeps rfl (SameTable.refl _)⟩
  | sbWait =>
    simp only [sbService, h, sbWait]
    refine ⟨_, rfl, ?_⟩
    split
    · exact ⟨SbReg.noConfusion, .keeps rfl (SameTable.refl _)⟩
    · split
      · exact ⟨SbReg.noConfusion, .keeps rfl (SameTable.refl _)⟩
      · split
        · obtain ⟨hstep, hreg'⟩ := sbWrite_fdStep F (sbSeen { s with sbReg := .sbWait })
          exact ⟨hreg', hstep.of_sameTable rfl (SameTable.refl _)⟩
        · exact ⟨SbReg.noConfusion, .keeps rfl (SameTable.refl _)⟩
  | sbWrite =>
    obtain ⟨hstep, hreg'⟩ := sbWrite_fdStep F s
    exact ⟨sbWrite F s, by rw [sbService, h], hreg', hstep⟩
  | sbClose => exact ⟨sbClose F s, by rw [sbService, h], SbReg.noConfusion, sbClose_fdStep F s⟩

/-! ### The command -/

/-- When the file that was opened is taken for a supported one, no file is being played, and
the header was read. -/
def OpenClean (F : FatFs φ) (s : Sb φ) (path : String) (stack : List UInt8) :
    Except Fault (ℤ × Files φ) → Prop
  | .error _ => True
  | .ok (ifd, files) =>
    0 ≤ ifd → supportedFormat (playHeader F s path stack) = true →
      s.fd < 0 ∧ (fatFread F files ifd wavHeaderSize).1.length ≠ 0

/-- This holds of the file that the command opens, if it opens one. -/
def PlayClean (F : FatFs φ) (s : Sb φ) (stack : List UInt8) : List String → Prop
  | _ :: path :: _ => OpenClean F s path stack (fatFopen F s.files path F.fileRead)
  | _ => True

instance (F : FatFs φ) (s : Sb φ) (path : String) (stack : List UInt8)
    (r : Except Fault (ℤ × Files φ)) : Decidable (OpenClean F s path stack r) :=
  match r with
  | .error _ => isTrue trivial
  | .ok _ => inferInstanceAs (Decidable (_ → _ → _ ∧ _))

instance (F : FatFs φ) (s : Sb φ) (stack : List UInt8) (argv : List String) :
    Decidable (PlayClean F s stack argv) :=
  match argv with
  | [] => isTrue trivial
  | [_] => isTrue trivial
  | _ :: _ :: _ => inferInstanceAs (Decidable (OpenClean _ _ _ _ _))

/-- What the command may do to the player's file. -/
inductive PlayStep (s s' : Sb φ) (clean : Prop) : Prop
  | refused (hfd : s'.fd = s.fd) (hsame : SameTable s.files s'.files) (hclean : clean)
  | accepted (k : Fin 10) (hfd : s'.fd = (k : ℕ)) (hopened : Opened s.files s'.files k)
      (hclean : clean ↔ s.fd < 0)
  /-- The file was closed again. -/
  | empty (k : Fin 10) (hfd : s'.fd = (k : ℕ)) (hfree : s.files.openFiles k = none)
      (hsame : SameTable s.files s'.files) (hclean : ¬ clean)

/-- The files after the header was read: the opened one is closed again when this failed. -/
lemma sbHeader_files {s : Sb φ} {files : Files φ} {k : Fin 10} (F : FatFs φ)
    (stack : List UInt8) (h : Opened s.files files k) :
    let r := sbHeader F { s with files := files } (k : ℕ) stack
    (fatFread F files (k : ℕ) wavHeaderSize).1.length = 0 ∧ SameTable s.files r.2.files ∨
      (fatFread F files (k : ℕ) wavHeaderSize).1.length ≠ 0 ∧ Opened s.files r.2.files k := by
  have hopened := h.trans (sameTable_fatFread F files (k : ℕ) wavHeaderSize)
  simp only [sbHeader]
  split
  · next hzero => exact Or.inl ⟨hzero, hopened.fatFclose F⟩
  · next hread => exact Or.inr ⟨hread, hopened⟩

/-- After the first tick the command ends, and does one of three things. -/
lemma sbM_playStep (F : FatFs φ) {s : Sb φ} (hfiles : FilesInv s.files) (argv : List String)
    (stack : List UInt8) :
    ∃ r s', sbM F s argv stack = .ok (r, s') ∧ s'.sbReg = s.sbReg ∧
      PlayStep s s' (PlayClean F s stack argv) := by
  match argv with
  | [] => exact ⟨_, _, rfl, rfl, .refused rfl (SameTable.refl _) trivial⟩
  | [_] => exact ⟨_, _, rfl, rfl, .refused rfl (SameTable.refl _) trivial⟩
  | _ :: path :: _ =>
    rcases hfiles.fatFopen_eq F path F.fileRead with ⟨files, hopen, hsame⟩ | ⟨k, files, hopen, hk⟩
    · simp only [sbM, PlayClean, OpenClean, hopen]
      exact ⟨_, _, rfl, rfl, .refused rfl hsame (fun hneg => absurd hneg (by decide))⟩
    · have hpos : ¬ ((k : ℕ) : ℤ) < 0 := by omega
      have hheader : playHeader F s path stack =
          (sbHeader F { s with files := files } (k : ℕ) stack).1 := by rw [playHeader, hopen]
      have htable := sbHeader_files F stack hk
      simp only [sbM, PlayClean, OpenClean, hopen, if_neg hpos, hheader]
      generalize hr : sbHeader F { s with files := files } (k : ℕ) stack = r at htable ⊢
      have hreg : r.2.sbReg = s.sbReg := by
        rw [← hr]
        exact sbHeader_sbReg _ _ _ _
      have hfd : r.2.fd = s.fd := by
        rw [← hr]
        exact sbHeader_fd _ _ _ _
      cases hsup : supportedFormat r.1 with
      | false =>
        refine ⟨_, _, rfl, hreg, .refused hfd ?_ (fun _ hsup' => absurd hsup' (by decide))⟩
        rcases htable with ⟨-, hsame⟩ | ⟨-, hopened⟩
        · -- closed before, when nothing could be read
          have hfree : r.2.files.openFiles k = none := by rw [hsame.openFiles, hk.free.1]
          show SameTable s.files (fatFclose F r.2.files (k : ℕ))
          rw [fatFclose_of_free F hfree]
          exact hsame
        · exact hopened.fatFclose F
      | true =>
        refine ⟨_, _, rfl, hreg, ?_⟩
        rcases htable with ⟨hzero, hsame⟩ | ⟨hread, hopened⟩
        · exact .empty k rfl hk.free.1 hsame fun hclean =>
            (hclean (by omega) rfl).2 hzero
        · exact .accepted k rfl hopened
            ⟨fun hclean => (hclean (by omega) rfl).1, fun hneg _ _ => ⟨hneg, hread⟩⟩

/-! ### Runs -/

/-- The events that matter to the player's file: a command, whatever lies on the stack, a
tick of the service, and whatever the audio channel and its handler do to the driver. -/
inductive PlayerEvent
  | play (argv : List String) (stack : List UInt8)
  | tick (pending : Bool)
  | dma (drv : State)

/-- What an event does to the player. -/
def playerStep (F : FatFs φ) (s : Sb φ) : PlayerEvent → Except Fault (Sb φ)
  | .play argv stack => (sbM F s argv stack).map Prod.snd
  | .tick pending => sbService F s pending
  | .dma drv => .ok { s with drv := drv }

/-- The condition on an event. -/
def playerOk (F : FatFs φ) (s : Sb φ) : PlayerEvent → Prop
  | .play argv stack => PlayClean F s stack argv
  | .tick _ => True
  | .dma _ => True

instance (F : FatFs φ) (s : Sb φ) (e : PlayerEvent) : Decidable (playerOk F s e) :=
  match e with
  | .play _ _ => inferInstanceAs (Decidable (PlayClean _ _ _ _))
  | .tick _ => isTrue trivial
  | .dma _ => isTrue trivial

/-- Before the first tick `fd` is zero, and no command was accepted. -/
structure PlayerInv (files₀ : Files φ) (s : Sb φ) : Prop where
  files : FilesInv s.files
  init : s.sbReg = .sbInit →
    s.fd = 0 ∧ usedSlots s.files.openFiles = usedSlots files₀.openFiles
  noLeak : s.sbReg ≠ .sbInit → NoLeak files₀ s

namespace NoLeak

variable {files₀ : Files φ} {s s' : Sb φ}

lemma congr (h : NoLeak files₀ s) (hfd : s'.fd = s.fd) (hsame : SameTable s.files s'.files) :
    NoLeak files₀ s' := by
  rw [noLeak_iff] at h ⊢
  rwa [hfd, hsame.openFiles]

lemma fdStep {F : FatFs φ} (h : NoLeak files₀ s) (hstep : FdStep F s s') : NoLeak files₀ s' := by
  cases hstep with
  | keeps hfd hsame => exact h.congr hfd hsame
  | closes files hsame hclose hfd =>
    rw [noLeak_iff] at h ⊢
    refine Or.inl ⟨hfd, ?_⟩
    rcases h with ⟨hneg, hused⟩ | ⟨k, hk, hpos, hused⟩
    · rw [hclose, hneg, fatFclose, show fatSlot (-1) = none from rfl, hsame.openFiles, hused]
    · rw [hclose, hpos, fatFclose_openFiles F files (fatSlot_natCast k), usedSlots_free,
        hsame.openFiles, hused, Finset.erase_insert hk]

/-- A command keeps the descriptors in order exactly when it is clean. -/
lemma playStep_iff (h : NoLeak files₀ s) {clean : Prop} (hstep : PlayStep s s' clean) :
    NoLeak files₀ s' ↔ clean := by
  cases hstep with
  | refused hfd hsame hclean => exact iff_of_true (h.congr hfd hsame) hclean
  | accepted k hfd hopened hclean =>
    have hfree : k ∉ usedSlots s.files.openFiles := by simp [hopened.free.1]
    rw [hclean, noLeak_iff, hopened.openFiles, usedSlots_take]
    rw [noLeak_iff] at h
    rcases h with ⟨hneg, hused⟩ | ⟨j, hj, hpos, hused⟩
    · rw [hused] at hfree ⊢
      exact iff_of_true (Or.inr ⟨k, hfree, hfd, rfl⟩) (by omega)
    · refine iff_of_false ?_ (by omega)
      rintro (⟨hneg, -⟩ | ⟨i, hi, hik, hall⟩)
      · omega
      · obtain rfl : k = i := Fin.ext (by omega)
        -- the file that was played before is still open
        have hmem : j ∈ insert k (usedSlots files₀.openFiles) := by
          rw [← hall, hused]
          simp
        rcases Finset.mem_insert.1 hmem with rfl | hmem
        · exact hfree (by rw [hused]; exact Finset.mem_insert_self _ _)
        · exact hj hmem
  | empty k hfd hfree hsame hclean =>
    refine iff_of_false ?_ hclean
    rw [noLeak_iff, hsame.openFiles]
    rintro (⟨hneg, -⟩ | ⟨i, -, hik, hall⟩)
    · omega
    · obtain rfl : k = i := Fin.ext (by omega)
      have hmem : k ∈ usedSlots s.files.openFiles := by
        rw [hall]
        exact Finset.mem_insert_self _ _
      exact absurd hfree (mem_usedSlots.1 hmem)

end NoLeak

lemma FdStep.filesInv {F : FatFs φ} {s s' : Sb φ} (h : FilesInv s.files) (hstep : FdStep F s s') :
    FilesInv s'.files := by
  cases hstep with
  | keeps _ hsame => exact h.congr hsame
  | closes files hsame hclose _ =>
    rw [hclose]
    exact (h.congr hsame).fclose F _

lemma PlayStep.filesInv {s s' : Sb φ} {clean : Prop} (h : FilesInv s.files)
    (hstep : PlayStep s s' clean) : FilesInv s'.files := by
  cases hstep with
  | refused _ hsame _ => exact h.congr hsame
  | accepted k _ hopened _ => exact h.opened hopened
  | empty k _ _ hsame _ => exact h.congr hsame

namespace PlayerInv

variable {F : FatFs φ} {files₀ : Files φ} {s : Sb φ}

lemma play (h : PlayerInv files₀ s) {argv : List String} {stack : List UInt8}
    (hclean : PlayClean F s stack argv) :
    ∃ r s', sbM F s argv stack = .ok (r, s') ∧ PlayerInv files₀ s' := by
  obtain ⟨r, s', hok, hreg, hstep⟩ := sbM_playStep F h.files argv stack
  refine ⟨r, s', hok, hstep.filesInv h.files, fun hinit => ?_, fun hinit => ?_⟩
  · -- before the first tick `fd` is zero, so no clean command is accepted
    obtain ⟨hfd, hused⟩ := h.init (hreg.symm.trans hinit)
    cases hstep with
    | refused hfd' hsame _ => exact ⟨hfd'.trans hfd, by rw [hsame.openFiles, hused]⟩
    | accepted k _ _ hiff =>
      have := hiff.1 hclean
      omega
    | empty k _ _ _ hnot => exact absurd hclean hnot
  · rw [hreg] at hinit
    exact ((h.noLeak hinit).playStep_iff hstep).2 hclean

lemma tick (h : PlayerInv files₀ s) (pending : Bool) :
    ∃ s', sbService F s pending = .ok s' ∧ PlayerInv files₀ s' := by
  by_cases hreg : s.sbReg = .sbInit
  · refine ⟨sbInit s, by rw [sbService, hreg], h.files, fun hinit => SbReg.noConfusion hinit,
      fun _ => noLeak_iff.2 (Or.inl ⟨rfl, (h.init hreg).2⟩)⟩
  · obtain ⟨s', hok, hreg', hstep⟩ := sbService_fdStep F s pending hreg
    exact ⟨s', hok, hstep.filesInv h.files, fun hinit => absurd hinit hreg',
      fun _ => (h.noLeak hreg).fdStep hstep⟩

lemma step (h : PlayerInv files₀ s) {e : PlayerEvent} (he : playerOk F s e) :
    ∃ s', playerStep F s e = .ok s' ∧ PlayerInv files₀ s' := by
  cases e with
  | play argv stack =>
    obtain ⟨r, s', hok, hinv⟩ := h.play he
    exact ⟨s', by rw [playerStep, hok]; rfl, hinv⟩
  | tick pending => exact h.tick pending
  | dma drv =>
    exact ⟨_, rfl, h.files, h.init, fun hreg => (h.noLeak hreg).congr rfl (SameTable.refl _)⟩

end PlayerInv

/-- **The descriptors of the player over whole runs.**  From the zero-initialised service
on, as long as every command is clean, the player has exactly the descriptor in `fd` open
in every state after the first tick; the first command that is not clean breaks this. -/
theorem player_noLeak {F : FatFs φ} {s₀ : Sb φ} {evs : List PlayerEvent}
    (hreg : s₀.sbReg = .sbInit) (hfd : s₀.fd = 0) (hfiles : FilesInv s₀.files)
    (hevs : AdmissibleE (playerStep F) (playerOk F) s₀ evs) :
    ∃ s, runE (playerStep F) s₀ evs = .ok s ∧
      (s.sbReg ≠ .sbInit → NoLeak s₀.files s ∧
        ∀ argv stack, ∃ r s', sbM F s argv stack = .ok (r, s') ∧
          (NoLeak s₀.files s' ↔ PlayClean F s stack argv)) := by
  have hinit : PlayerInv s₀.files s₀ := ⟨hfiles, fun _ => ⟨hfd, rfl⟩, fun hne => absurd hreg hne⟩
  obtain ⟨s, hrun, hs⟩ := hevs.invariant (fun _ _ h he => h.step he) hinit
  refine ⟨s, hrun, fun hne => ⟨hs.noLeak hne, fun argv stack => ?_⟩⟩
  obtain ⟨r, s', hok, -, hstep⟩ := sbM_playStep F hs.files argv stack
  exact ⟨r, s', hok, (hs.noLeak hne).playStep_iff hstep⟩

theorem player_noLeak_boot :
    ∃ s, runE (playerStep oneFile) sbZero
        [.tick false, .play ["play", "a.wav"] [], .tick false, .play ["play"] []] = .ok s ∧
      (s.sbReg ≠ .sbInit → NoLeak sbZero.files s ∧
        ∀ argv stack, ∃ r s', sbM oneFile s argv stack = .ok (r, s') ∧
          (NoLeak sbZero.files s' ↔ PlayClean oneFile s stack argv)) :=
  player_noLeak rfl rfl ⟨rfl, by simp [sbZero]⟩ (by decide)

/-- A second command while a file is played: two descriptors are open, and `fd` is the
second. -/
theorem player_leak :
    ∃ s, runE (playerStep oneFile) sbZero
        [.tick false, .play ["play", "a.wav"] [], .tick false, .play ["play", "b.wav"] []] = .ok s ∧
      s.sbReg ≠ .sbInit ∧ ¬ NoLeak sbZero.files s := by
  refine ⟨_, rfl, by decide, fun h => ?_⟩
  obtain ⟨k, -, hone⟩ := h.one_open (by decide)
  have hcard := congrArg Finset.card hone
  rw [Finset.card_singleton] at hcard
  exact absurd hcard (by decide)

end EvtDrivenOs.Sound
