/-
The file layer `fatfs/fat.c`: the table of open files and its counter.

The FatFs library itself is a parameter: `FatFs φ` is its functions over a state
`φ` of their own, and nothing is assumed about the results they return.  A file
object `&file_desc[i]` is represented by its index `i`, and `NULL` by `none`.
-/
import EvtDrivenOs.Basic
import EvtDrivenOs.Lib.Run
import EvtDrivenOs.Lib.SlotTable

namespace EvtDrivenOs.Fat

open EvtDrivenOs.Lib

/-! ### The library -/

/-- The results of FatFs that the file layer tells apart. -/
inductive Fresult
  | frOk
  | frDiskErr
  | frNoFile
  | frNoPath
  | frDenied
  | other (code : ℕ)
deriving DecidableEq, Repr

/-- The errors of the file layer. -/
inductive FatErrorCode
  | fatOk
  | fatAccessDenied
  | fatIoError
  | fatNotFound
  | fatErrNotset
deriving DecidableEq, Repr

/-- The functions of FatFs that are used here, over a state `φ`, and the mode bits for
reading. -/
structure FatFs (φ : Type*) where
  fileRead : UInt8
  fMount : φ → String → Fresult × φ
  fUnmount : φ → String → Fresult × φ
  fOpen : φ → ℕ → String → UInt8 → Fresult × φ
  fClose : φ → ℕ → Fresult × φ
  /-- The bytes read come with the result. -/
  fRead : φ → Option ℕ → ℕ → Fresult × List UInt8 × φ

/-! ### The code -/

/-- `MAX_OPEN_FILES`. -/
def maxOpenFiles : ℕ := 10

/-- The static variables of `fat.c`, and the state of FatFs. -/
structure Files (φ : Type*) where
  files : UInt8
  openFiles : Fin 10 → Option ℕ
  errorCode : FatErrorCode
  fs : φ

variable {φ : Type*}

/-- The result of FatFs, as an error of the file layer. -/
def fatErrCode : Fresult → FatErrorCode
  | .frOk => .fatOk
  | .frDenied => .fatAccessDenied
  | .frDiskErr => .fatIoError
  | .frNoPath => .fatNotFound
  | .frNoFile => .fatNotFound
  | .other _ => .fatErrNotset

/-- `set_fatErrCode` with the result of a call of FatFs. -/
def setFatErrCode (s : Files φ) (result : Fresult) : Files φ :=
  { s with errorCode := fatErrCode result }

/-- A mount empties the table of the open files. -/
def fatMount (F : FatFs φ) (s : Files φ) (path : String) : Bool × Files φ :=
  let r := F.fMount s.fs path
  let s := setFatErrCode { s with fs := r.2 } r.1
  let s :=
    if s.errorCode = .fatOk then { s with files := 0, openFiles := fun _ => none } else s
  (decide (s.errorCode = .fatOk), s)

/-- The volume is given back. -/
def fatUnmount (F : FatFs φ) (s : Files φ) (path : String) : Bool × Files φ :=
  let r := F.fUnmount s.fs path
  let s := setFatErrCode { s with fs := r.2 } r.1
  (decide (s.errorCode = .fatOk), s)

/-- The entry that a descriptor stands for, if it is in range. -/
def fatSlot (fd : ℤ) : Option (Fin 10) :=
  if h : 0 ≤ fd ∧ fd < maxOpenFiles then
    some ⟨fd.toNat, by simp only [maxOpenFiles] at h; omega⟩
  else none

/-- Closes a descriptor; the result of `f_close` only goes to the error code. -/
def fatFclose (F : FatFs φ) (s : Files φ) (fd : ℤ) : Files φ :=
  match fatSlot fd with
  | none => s
  | some i =>
    match s.openFiles i with
    | none => s
    | some fp =>
      let r := F.fClose s.fs fp
      let s := setFatErrCode { s with fs := r.2 } r.1
      { s with files := s.files - 1, openFiles := Function.update s.openFiles i none }

/-- Reads `open_files[i]`. -/
def readOpenFiles (s : Files φ) (i : ℕ) : Except Fault (Option ℕ) :=
  if h : i < 10 then .ok (s.openFiles ⟨i, h⟩) else .error .outOfBounds

/-- The search loop of `fat_fopen`: `n` rounds are left, `fp` is the entry at `i`. -/
def fopenLoop (s : Files φ) : ℕ → ℕ → Option ℕ → Except Fault ℕ
  | n + 1, i, some _ =>
    match readOpenFiles s (i + 1) with
    | .error e => .error e
    | .ok fp => fopenLoop s n (i + 1) fp
  | _, i, _ => .ok i

/-- The file object that `fat_fopen` hands to FatFs; `none` when all are in use. -/
def fopenFil (s : Files φ) : Except Fault (Option ℕ) :=
  if s.files.toNat = maxOpenFiles then .ok none
  else
    match readOpenFiles s 0 with
    | .error e => .error e
    | .ok fp => (fopenLoop s maxOpenFiles 0 fp).map some

/-- The first free entry of the table is taken; `-1` where there is none or FatFs fails. -/
def fatFopen (F : FatFs φ) (s : Files φ) (path : String) (mode : UInt8) :
    Except Fault (ℤ × Files φ) :=
  match fopenFil s with
  | .error e => .error e
  | .ok none => .ok (-1, s)
  | .ok (some i) =>
    let r := F.fOpen s.fs i path mode
    let s := setFatErrCode { s with fs := r.2 } r.1
    if s.errorCode ≠ .fatOk then .ok (-1, s)
    else if h : i < 10 then
      .ok (i, { s with
        files := s.files + 1
        openFiles := Function.update s.openFiles ⟨i, h⟩ (some i) })
    else .error .outOfBounds

/-- Reads up to `nread` bytes; the result are the bytes read. -/
def fatFread (F : FatFs φ) (s : Files φ) (fd : ℤ) (nread : ℕ) : List UInt8 × Files φ :=
  match fatSlot fd with
  | none => ([], s)
  | some i =>
    let r := F.fRead s.fs (s.openFiles i) nread
    (r.2.1, setFatErrCode { s with fs := r.2.2 } r.1)

/-! ### The invariant of the table -/

/-- The counter counts the entries in use, and each entry is its own file object. -/
structure FilesInv (s : Files φ) : Prop where
  files : s.files.toNat = occupied s.openFiles
  own : ∀ i p, s.openFiles i = some p → p = i

lemma fatSlot_natCast (i : Fin 10) : fatSlot (i : ℕ) = some i := by
  have : (0 : ℤ) ≤ (i : ℕ) ∧ ((i : ℕ) : ℤ) < maxOpenFiles := by
    simp only [maxOpenFiles]
    omega
  simp [fatSlot, this]

/-- The search stops at the first free entry and reads no entry after it. -/
lemma fopenLoop_eq {s : Files φ} {k : Fin 10} (hk : FirstFree s.openFiles k) :
    ∀ {n i : ℕ} (hi : i < 10), i ≤ k → i + n = 10 →
      fopenLoop s n i (s.openFiles ⟨i, hi⟩) = .ok (k : ℕ)
  | 0, i, hi, _, hn => absurd hn (by omega)
  | n + 1, i, hi, hik, hn => by
    rcases Nat.eq_or_lt_of_le hik with rfl | hlt
    · rw [hk.1]
      rfl
    · -- the entry at `i` is in use, so the next round looks at `i + 1`
      obtain ⟨p, hp⟩ := Option.ne_none_iff_exists'.1 (hk.2 ⟨i, hi⟩ hlt)
      have hi' : i + 1 < 10 := by omega
      rw [hp, fopenLoop, readOpenFiles, dif_pos hi']
      exact fopenLoop_eq hk hi' hlt (by omega)

/-- What `fat_fclose` does: nothing to a closed or invalid descriptor, and else it
frees the entry. -/
lemma fatFclose_eq (F : FatFs φ) (s : Files φ) (fd : ℤ) :
    (fatSlot fd).bind s.openFiles = none ∧ fatFclose F s fd = s ∨
      ∃ k : Fin 10, fatSlot fd = some k ∧ s.openFiles k ≠ none ∧
        (fatFclose F s fd).files = s.files - 1 ∧
        (fatFclose F s fd).openFiles = Function.update s.openFiles k none := by
  cases hslot : fatSlot fd with
  | none => exact Or.inl ⟨rfl, by simp only [fatFclose, hslot]⟩
  | some k =>
    cases hk : s.openFiles k with
    | none => exact Or.inl ⟨hk, by simp only [fatFclose, hslot, hk]⟩
    | some fp =>
      refine Or.inr ⟨k, rfl, by simp [hk], ?_, ?_⟩ <;>
        simp only [fatFclose, hslot, hk, setFatErrCode]

/-- After `fat_fclose` the entry is free, whether it was in use or not. -/
lemma fatFclose_openFiles (F : FatFs φ) (s : Files φ) {fd : ℤ} {k : Fin 10}
    (hk : fatSlot fd = some k) :
    (fatFclose F s fd).openFiles = Function.update s.openFiles k none := by
  rcases fatFclose_eq F s fd with ⟨hnone, hkeep⟩ | ⟨i, hi, -, -, hopen⟩
  · rw [hk, Option.bind_some] at hnone
    rw [hkeep, ← hnone, Function.update_eq_self]
  · obtain rfl := Option.some.inj (hk.symm.trans hi)
    exact hopen

/-- A descriptor that `fat_fopen` returns is in range. -/
lemma fatSlot_of_fatFopen {F : FatFs φ} {s s' : Files φ} {path : String} {mode : UInt8} {fd : ℤ}
    (h : fatFopen F s path mode = .ok (fd, s')) (hfd : 0 ≤ fd) : ∃ k, fatSlot fd = some k := by
  unfold fatFopen at h
  split at h
  · simp at h
  · simp only [Except.ok.injEq, Prod.mk.injEq] at h
    omega
  · next i _ =>
    simp only at h
    split at h
    · simp only [Except.ok.injEq, Prod.mk.injEq] at h
      omega
    · split at h
      · next hi =>
        simp only [Except.ok.injEq, Prod.mk.injEq] at h
        exact ⟨⟨i, hi⟩, by rw [← h.1]; exact fatSlot_natCast ⟨i, hi⟩⟩
      · simp at h

/-- The table and its counter are as before. -/
structure SameTable (s s' : Files φ) : Prop where
  files : s'.files = s.files
  openFiles : s'.openFiles = s.openFiles

/-- The first free entry `k` was taken. -/
structure Opened (s s' : Files φ) (k : Fin 10) : Prop where
  free : FirstFree s.openFiles k
  files : s'.files = s.files + 1
  openFiles : s'.openFiles = Function.update s.openFiles k (some (k : ℕ))

lemma SameTable.refl (s : Files φ) : SameTable s s := ⟨rfl, rfl⟩

lemma SameTable.trans {s s' s'' : Files φ} (h : SameTable s s') (h' : SameTable s' s'') :
    SameTable s s'' := ⟨h'.files.trans h.files, h'.openFiles.trans h.openFiles⟩

lemma Opened.trans {s s' s'' : Files φ} {k : Fin 10} (h : Opened s s' k) (h' : SameTable s' s'') :
    Opened s s'' k := ⟨h.free, h'.files.trans h.files, h'.openFiles.trans h.openFiles⟩

lemma sameTable_fatFread (F : FatFs φ) (s : Files φ) (fd : ℤ) (n : ℕ) :
    SameTable s (fatFread F s fd n).2 := by
  unfold fatFread
  split
  · exact SameTable.refl s
  · exact ⟨rfl, rfl⟩

/-- Closing what was opened last gives back the table. -/
lemma Opened.fatFclose {s s' : Files φ} {k : Fin 10} (h : Opened s s' k) (F : FatFs φ) :
    SameTable s (fatFclose F s' (k : ℕ)) := by
  have hfree : s.openFiles k = none := h.free.1
  rcases fatFclose_eq F s' (k : ℕ) with ⟨hnone, -⟩ | ⟨i, hi, -, hfiles, hopen⟩
  · rw [fatSlot_natCast, Option.bind_some, h.openFiles, Function.update_self] at hnone
    exact absurd hnone (Option.some_ne_none _)
  · obtain rfl : k = i := Option.some.inj ((fatSlot_natCast k).symm.trans hi)
    refine ⟨?_, ?_⟩
    · rw [hfiles, h.files, UInt8.add_sub_cancel]
    · rw [hopen, h.openFiles, Function.update_idem, ← hfree, Function.update_eq_self]

/-- Closing a free entry changes nothing. -/
lemma fatFclose_of_free (F : FatFs φ) {s : Files φ} {k : Fin 10} (h : s.openFiles k = none) :
    fatFclose F s (k : ℕ) = s := by
  simp only [fatFclose, fatSlot_natCast, h]

namespace FilesInv

variable {s : Files φ}

lemma congr (h : FilesInv s) {s' : Files φ} (hsame : SameTable s s') : FilesInv s' where
  files := by rw [hsame.files, hsame.openFiles, h.files]
  own := by
    rw [hsame.openFiles]
    exact h.own

lemma files_le (h : FilesInv s) : s.files.toNat ≤ 10 := by
  rw [h.files]
  exact occupied_le _

/-- The file object handed to FatFs belongs to the first free entry. -/
lemma fopenFil_eq (h : FilesInv s) :
    fopenFil s = .ok none ∧ s.files.toNat = 10 ∨
      ∃ k : Fin 10, FirstFree s.openFiles k ∧ fopenFil s = .ok (some k) := by
  by_cases hfull : s.files.toNat = 10
  · exact Or.inl ⟨by simp [fopenFil, hfull, maxOpenFiles], hfull⟩
  · have hle := h.files_le
    obtain ⟨k, hk⟩ := exists_firstFree (t := s.openFiles) (by rw [← h.files]; omega)
    refine Or.inr ⟨k, hk, ?_⟩
    have hloop := fopenLoop_eq hk (n := maxOpenFiles) (i := 0) (by decide) (Nat.zero_le _) rfl
    rw [fopenFil, if_neg (by simpa [maxOpenFiles] using hfull), readOpenFiles, dif_pos (by decide)]
    simp only [hloop, Except.map]

/-- A free entry's file object is in use nowhere. -/
lemma notMem_of_free (h : FilesInv s) {k : Fin 10} (hk : s.openFiles k = none) (j : Fin 10) :
    s.openFiles j ≠ some (k : ℕ) := by
  intro hj
  have heq : (k : ℕ) = j := h.own j k hj
  rw [← Fin.ext heq, hk] at hj
  simp at hj

/-- What `fat_fopen` does: it fails and leaves the table alone, or it takes the first
free entry. -/
lemma fatFopen_eq (h : FilesInv s) (F : FatFs φ) (path : String) (mode : UInt8) :
    (∃ s', fatFopen F s path mode = .ok (-1, s') ∧ SameTable s s') ∨
      ∃ (k : Fin 10) (s' : Files φ), fatFopen F s path mode = .ok ((k : ℕ), s') ∧
        Opened s s' k := by
  rcases h.fopenFil_eq with ⟨hnone, -⟩ | ⟨k, hk, hfil⟩
  · exact Or.inl ⟨s, by rw [fatFopen, hnone], SameTable.refl s⟩
  · rw [fatFopen, hfil]
    generalize hs₁ : setFatErrCode { s with fs := (F.fOpen s.fs k path mode).2 }
      (F.fOpen s.fs k path mode).1 = s₁
    have hfiles : s₁.files = s.files := by rw [← hs₁]; rfl
    have hopen : s₁.openFiles = s.openFiles := by rw [← hs₁]; rfl
    by_cases hok : s₁.errorCode = .fatOk
    · refine Or.inr ⟨k, { s₁ with
        files := s₁.files + 1
        openFiles := Function.update s₁.openFiles k (some (k : ℕ)) }, ?_, hk, ?_, ?_⟩
      · simp only [hs₁, hok, ne_eq, not_true, if_false, dif_pos k.isLt]
      · rw [hfiles]
      · rw [hopen]
    · refine Or.inl ⟨s₁, ?_, hfiles, hopen⟩
      simp only [hs₁, ne_eq, hok, not_false_iff, if_true]

lemma opened (h : FilesInv s) {k : Fin 10} {s' : Files φ} (hopened : Opened s s' k) :
    FilesInv s' where
  files := by
    have hlt : occupied s'.openFiles ≤ 10 := occupied_le _
    rw [hopened.openFiles, occupied_take hopened.free.1] at hlt
    rw [hopened.openFiles, occupied_take hopened.free.1, hopened.files, UInt8.toNat_add,
      UInt8.toNat_one, h.files]
    omega
  own i p hp := by
    rw [hopened.openFiles, Function.update_apply] at hp
    split at hp
    · next heq =>
      rw [heq]
      exact (Option.some.inj hp).symm
    · exact h.own i p hp

/-- Freeing an entry lowers the counter by one. -/
lemma files_sub (h : FilesInv s) {k : Fin 10} (hk : s.openFiles k ≠ none) :
    (s.files - 1).toNat + 1 = s.files.toNat := by
  -- an entry is in use, so the counter is not zero
  have hpos := occupied_free hk
  have hlt := s.files.toNat_lt
  rw [← h.files] at hpos
  rw [UInt8.toNat_sub, UInt8.toNat_one]
  omega

lemma free (h : FilesInv s) {k : Fin 10} (hk : s.openFiles k ≠ none) {s' : Files φ}
    (hfiles : s'.files = s.files - 1)
    (hopen : s'.openFiles = Function.update s.openFiles k none) : FilesInv s' where
  files := by
    have hsub := h.files_sub hk
    have hocc := occupied_free hk
    rw [h.files] at hsub
    rw [hopen, hfiles]
    omega
  own i p hp := by
    rw [hopen, Function.update_apply] at hp
    split at hp
    · simp at hp
    · exact h.own i p hp

lemma fclose (h : FilesInv s) (F : FatFs φ) (fd : ℤ) : FilesInv (fatFclose F s fd) := by
  rcases fatFclose_eq F s fd with ⟨-, hkeep⟩ | ⟨k, -, hk, hfiles, hopen⟩
  · rwa [hkeep]
  · exact h.free hk hfiles hopen

end FilesInv

end EvtDrivenOs.Fat
