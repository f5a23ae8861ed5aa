/-
Runs of the file layer: mounting, unmounting, opening and closing in any order,
with any arguments and any results of FatFs.

`fat_fopen` searches the table only because the counter says that an entry is
free, and the search stays in bounds only because the counter is right.  So a run
never reads past the table, and `FilesCorrect` holds after it.
-/
import EvtDrivenOs.Fat.Table

namespace EvtDrivenOs.Fat

open EvtDrivenOs.Lib

/-- The calls of the file layer that touch the table. -/
inductive FatCall
  | mount (path : String)
  | unmount (path : String)
  | fopen (path : String) (mode : UInt8)
  | fclose (fd : ℤ)

variable {φ : Type*}

/-- What a call does to the table. -/
def fatStep (F : FatFs φ) (s : Files φ) : FatCall → Except Fault (Files φ)
  | .mount path => .ok (fatMount F s path).2
  | .unmount path => .ok (fatUnmount F s path).2
  | .fopen path mode => (fatFopen F s path mode).map Prod.snd
  | .fclose fd => .ok (fatFclose F s fd)

/-- What holds of the table in every state. -/
structure FilesCorrect (F : FatFs φ) (s : Files φ) : Prop where
  /-- The counter is the number of entries in use, and these are their own file objects. -/
  files : s.files.toNat = occupied s.openFiles
  files_le : s.files.toNat ≤ 10
  /-- An entry in use has the file object of its own number. -/
  own : ∀ i p, s.openFiles i = some p → p = i
  /-- The search for an entry does not leave the table. -/
  in_bounds : ∀ path mode, ∃ r, fatFopen F s path mode = .ok r
  /-- FatFs is handed a file object that no open descriptor uses. -/
  fresh : ∀ k, fopenFil s = .ok (some k) → k < 10 ∧ ∀ j, s.openFiles j ≠ some k
  /-- A descriptor that is returned is the first free one, and it is counted. -/
  opens : ∀ path mode fd s', fatFopen F s path mode = .ok (fd, s') → 0 ≤ fd →
    ∃ k : Fin 10, fd = (k : ℕ) ∧ FirstFree s.openFiles k ∧
      s'.openFiles = Function.update s.openFiles k (some (k : ℕ)) ∧
      s'.files.toNat = s.files.toNat + 1
  /-- A call that fails changes neither the table nor the counter. -/
  open_fails : ∀ path mode fd s', fatFopen F s path mode = .ok (fd, s') → fd < 0 →
    s'.openFiles = s.openFiles ∧ s'.files = s.files
  /-- Closing a descriptor that is open uncounts it; the counter does not wrap. -/
  closes : ∀ fd k, fatSlot fd = some k → s.openFiles k ≠ none →
    (fatFclose F s fd).openFiles = Function.update s.openFiles k none ∧
      (fatFclose F s fd).files.toNat + 1 = s.files.toNat
  /-- Closing a closed descriptor or an invalid one changes nothing. -/
  close_fails : ∀ fd, (fatSlot fd).bind s.openFiles = none →
    (fatFclose F s fd).openFiles = s.openFiles ∧ (fatFclose F s fd).files = s.files

namespace FilesInv

variable {F : FatFs φ} {s : Files φ}

lemma opens (h : FilesInv s) {path : String} {mode : UInt8} {fd : ℤ} {s' : Files φ}
    (hok : fatFopen F s path mode = .ok (fd, s')) (hfd : 0 ≤ fd) :
    ∃ k : Fin 10, fd = (k : ℕ) ∧ FirstFree s.openFiles k ∧
      s'.openFiles = Function.update s.openFiles k (some (k : ℕ)) ∧
      s'.files.toNat = s.files.toNat + 1 := by
  rcases h.fatFopen_eq F path mode with ⟨_, hneg, -⟩ | ⟨k, t, ht, hopened⟩
  · rw [hneg, Except.ok.injEq, Prod.mk.injEq] at hok
    omega
  · rw [ht, Except.ok.injEq, Prod.mk.injEq] at hok
    obtain ⟨rfl, rfl⟩ := hok
    refine ⟨k, rfl, hopened.free, hopened.openFiles, ?_⟩
    rw [(h.opened hopened).files, hopened.openFiles, occupied_take hopened.free.1, h.files]

lemma open_fails (h : FilesInv s) {path : String} {mode : UInt8} {fd : ℤ} {s' : Files φ}
    (hok : fatFopen F s path mode = .ok (fd, s')) (hfd : fd < 0) :
    s'.openFiles = s.openFiles ∧ s'.files = s.files := by
  rcases h.fatFopen_eq F path mode with ⟨_, hneg, hsame⟩ | ⟨k, _, ht, -⟩
  · rw [hneg, Except.ok.injEq, Prod.mk.injEq] at hok
    obtain ⟨-, rfl⟩ := hok
    exact ⟨hsame.openFiles, hsame.files⟩
  · rw [ht, Except.ok.injEq, Prod.mk.injEq] at hok
    omega

lemma correct (h : FilesInv s) : FilesCorrect F s where
  files := h.files
  files_le := h.files_le
  own := h.own
  in_bounds path mode := by
    rcases h.fatFopen_eq F path mode with ⟨_, hok, -⟩ | ⟨_, _, hok, -⟩
    · exact ⟨_, hok⟩
    · exact ⟨_, hok⟩
  fresh k hfil := by
    rcases h.fopenFil_eq with ⟨hnone, -⟩ | ⟨i, hi, hsome⟩
    · rw [hnone] at hfil
      simp at hfil
    · rw [hsome] at hfil
      obtain rfl : (i : ℕ) = k := by simpa using hfil
      exact ⟨i.isLt, h.notMem_of_free hi.1⟩
  opens _ _ _ _ hok hfd := h.opens hok hfd
  open_fails _ _ _ _ hok hfd := h.open_fails hok hfd
  closes fd k hslot hk := by
    rcases fatFclose_eq F s fd with ⟨hnone, -⟩ | ⟨i, hi, -, hfiles, hopen⟩
    · rw [hslot] at hnone
      exact absurd hnone hk
    · obtain rfl : k = i := Option.some.inj (hslot.symm.trans hi)
      exact ⟨hopen, by rw [hfiles]; exact h.files_sub hk⟩
  close_fails fd hnone := by
    rcases fatFclose_eq F s fd with ⟨-, hkeep⟩ | ⟨i, hi, hne, -⟩
    · rw [hkeep]
      exact ⟨rfl, rfl⟩
    · rw [hi] at hnone
      exact absurd hnone hne

/-- Every call succeeds as a computation and keeps the invariant. -/
lemma step (h : FilesInv s) (c : FatCall) : ∃ s', fatStep F s c = .ok s' ∧ FilesInv s' := by
  cases c with
  | mount path =>
    refine ⟨_, rfl, ?_⟩
    simp only [fatMount]
    split
    · exact ⟨occupied_empty.symm, by simp⟩
    · exact ⟨h.files, h.own⟩
  | unmount path => exact ⟨_, rfl, h.files, h.own⟩
  | fopen path mode =>
    rcases h.fatFopen_eq F path mode with ⟨s', hok, hsame⟩ | ⟨k, s', hok, hopened⟩
    · exact ⟨s', by rw [fatStep, hok]; rfl, h.congr hsame⟩
    · exact ⟨s', by rw [fatStep, hok]; rfl, h.opened hopened⟩
  | fclose fd => exact ⟨_, rfl, h.fclose F fd⟩

end FilesInv

/-- **The table of open files over whole runs.**  From the zero-initialised table, with
any state and any results of FatFs, no call reads past the table, and the counter and
the table agree after every run. -/
theorem fatRun_correct (F : FatFs φ) (fs : φ) (code : FatErrorCode) (calls : List FatCall) :
    ∃ s, runE (fatStep F) ⟨0, fun _ => none, code, fs⟩ calls = .ok s ∧ FilesCorrect F s := by
  have hinit : FilesInv (⟨0, fun _ => none, code, fs⟩ : Files φ) :=
    ⟨occupied_empty.symm, by simp⟩
  have hall : AdmissibleE (fatStep F) (fun _ _ => True) ⟨0, fun _ => none, code, fs⟩ calls :=
    admissibleE_of_forall (fun _ _ => trivial) _ _
  obtain ⟨s, hok, hs⟩ := hall.invariant (fun _ c h _ => h.step c) hinit
  exact ⟨s, hok, hs.correct⟩

end EvtDrivenOs.Fat
