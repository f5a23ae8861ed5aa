/-
Calls on descriptors that are not open.

A session is a run of the file layer that keeps track of the descriptors it has opened.
The table has an entry for just these.  For any other descriptor `fat_fsize` and
`fat_fclose` return without a call of FatFs; `fat_fread` and `fat_fwrite` look at the range
of the descriptor only, and hand the free entry, `NULL`, to FatFs.
-/
import EvtDrivenOs.Fat.Table

namespace EvtDrivenOs.Fat

open EvtDrivenOs.Lib

/-! ### The code -/

/-- The functions of FatFs on a file object, with those that opening and closing do not
need. -/
structure FatIo (φ : Type*) extends FatFs φ where
  /-- `f_read` stores the number of bytes read. -/
  fReadStores : φ → Option ℕ → ℕ → Bool
  /-- The number of bytes written, if `f_write` stores it. -/
  fWrite : φ → Option ℕ → List UInt8 → Fresult × Option ℕ × φ
  /-- `f_size` is a macro that reads the object. -/
  fSize : φ → ℕ → ℕ

variable {φ : Type*}

/-- What `fat_fread` returns; `none` is a variable that was not set. -/
def fatFreadCount (F : FatIo φ) (s : Files φ) (fd : ℤ) (nread : ℕ) : Option ℕ :=
  match fatSlot fd with
  | none => some 0
  | some i =>
    if F.fReadStores s.fs (s.openFiles i) nread then
      some (fatFread F.toFatFs s fd nread).1.length
    else none

/-- A write through a descriptor. -/
def fatFwrite (F : FatIo φ) (s : Files φ) (fd : ℤ) (buffer : List UInt8) : Option ℕ × Files φ :=
  match fatSlot fd with
  | none => (some 0, s)
  | some i =>
    let r := F.fWrite s.fs (s.openFiles i) buffer
    (r.2.1, setFatErrCode { s with fs := r.2.2 } r.1)

/-- The size of the file behind a descriptor, zero where there is none. -/
def fatFsize (F : FatIo φ) (s : Files φ) (fd : ℤ) : ℕ :=
  match fatSlot fd with
  | none => 0
  | some i =>
    match s.openFiles i with
    | none => 0
    | some fp => F.fSize s.fs fp

/-- The four operations on a descriptor. -/
inductive FdOp
  | fread (nread : ℕ)
  | fwrite (buffer : List UInt8)
  | fsize
  | fclose
deriving DecidableEq, Repr

/-- What an operation returns, 0 where it returns nothing, and the state after it. -/
def fdOp (F : FatIo φ) (s : Files φ) (fd : ℤ) : FdOp → Option ℕ × Files φ
  | .fread nread => (fatFreadCount F s fd nread, (fatFread F.toFatFs s fd nread).2)
  | .fwrite buffer => fatFwrite F s fd buffer
  | .fsize => (some (fatFsize F s fd), s)
  | .fclose => (some 0, fatFclose F.toFatFs s fd)

/-! ### Sessions -/

/-- The file layer with the descriptors that denote an open file: `fat_fopen` has returned
them, and they have neither been closed since then nor dropped by a remount. -/
structure Session (φ : Type*) where
  files : Files φ
  opened : ℤ → Bool

/-- The calls of a program that uses files. -/
inductive SessionCall
  | mount (path : String)
  | unmount (path : String)
  | fopen (path : String) (mode : UInt8)
  | op (fd : ℤ) (o : FdOp)

/-- What a call does, and which descriptors are open behind it. -/
def sessionStep (F : FatIo φ) (s : Session φ) : SessionCall → Except Fault (Session φ)
  | .mount path =>
    let r := fatMount F.toFatFs s.files path
    .ok ⟨r.2, if r.1 then fun _ => false else s.opened⟩
  | .unmount path => .ok { s with files := (fatUnmount F.toFatFs s.files path).2 }
  | .fopen path mode =>
    (fatFopen F.toFatFs s.files path mode).map fun r =>
      ⟨r.2, if 0 ≤ r.1 then Function.update s.opened r.1 true else s.opened⟩
  | .op fd o =>
    .ok ⟨(fdOp F s.files fd o).2,
      if o = .fclose then Function.update s.opened fd false else s.opened⟩

/-- The session before the first call. -/
def sessionStart (fs : φ) (code : FatErrorCode) : Session φ :=
  ⟨⟨0, fun _ => none, code, fs⟩, fun _ => false⟩

/-- The table has an entry for the descriptors that are open, and for no other. -/
structure SessionInv (s : Session φ) : Prop where
  files : FilesInv s.files
  opened : ∀ fd, s.opened fd = true ↔ ∃ k : Fin 10, fd = (k : ℕ) ∧ s.files.openFiles k ≠ none

lemma fatSlot_eq_some {fd : ℤ} {k : Fin 10} : fatSlot fd = some k ↔ fd = (k : ℕ) := by
  constructor
  · intro h
    rw [fatSlot] at h
    split at h
    · next hrange =>
      have hval : fd.toNat = k := congrArg Fin.val (Option.some.inj h)
      omega
    · cases h
  · rintro rfl
    exact fatSlot_natCast k

lemma fatSlot_eq_none {fd : ℤ} : fatSlot fd = none ↔ fd < 0 ∨ 10 ≤ fd := by
  have hmax : (maxOpenFiles : ℤ) = 10 := rfl
  rw [fatSlot]
  split
  · next hrange => exact iff_of_false (Option.some_ne_none _) (by omega)
  · next hrange => exact iff_of_true rfl (by omega)

/-- An update of another entry is not seen. -/
lemma entry_update {t : Fin 10 → Option ℕ} {k : Fin 10} {v : Option ℕ} {fd : ℤ}
    (hfd : fd ≠ (k : ℕ)) :
    (∃ j : Fin 10, fd = (j : ℕ) ∧ Function.update t k v j ≠ none) ↔
      ∃ j : Fin 10, fd = (j : ℕ) ∧ t j ≠ none := by
  refine exists_congr fun j => and_congr_right fun hj => ?_
  have hjk : j ≠ k := by
    rintro rfl
    exact hfd hj
  rw [Function.update_of_ne hjk]

namespace SessionInv

variable {F : FatIo φ} {s : Session φ}

lemma start (fs : φ) (code : FatErrorCode) : SessionInv (sessionStart fs code) where
  files := ⟨occupied_empty.symm, by simp [sessionStart]⟩
  opened fd := by simp [sessionStart]

lemma congr (h : SessionInv s) {files : Files φ} (hsame : SameTable s.files files) :
    SessionInv { s with files := files } where
  files := h.files.congr hsame
  opened fd := by
    rw [h.opened, hsame.openFiles]

/-- An entry that was free is taken. -/
lemma opens (h : SessionInv s) {files : Files φ} {k : Fin 10} (hk : Opened s.files files k) :
    SessionInv ⟨files, Function.update s.opened (k : ℕ) true⟩ where
  files := h.files.opened hk
  opened fd := by
    simp only [hk.openFiles]
    by_cases hfd : fd = (k : ℕ)
    · rw [hfd, Function.update_self]
      exact iff_of_true rfl ⟨k, rfl, by rw [Function.update_self]; exact Option.some_ne_none _⟩
    · rw [Function.update_of_ne hfd, h.opened, entry_update hfd]

lemma closes (h : SessionInv s) (F : FatFs φ) (fd : ℤ) :
    SessionInv ⟨fatFclose F s.files fd, Function.update s.opened fd false⟩ where
  files := h.files.fclose F fd
  opened fd' := by
    dsimp only
    by_cases hfd : fd' = fd
    · rw [hfd, Function.update_self]
      refine iff_of_false Bool.false_ne_true ?_
      rintro ⟨k, hk, hopen⟩
      rw [fatFclose_openFiles F s.files (fatSlot_eq_some.mpr hk), Function.update_self] at hopen
      exact hopen rfl
    · rw [Function.update_of_ne hfd, h.opened]
      cases hslot : fatSlot fd with
      | none => simp only [fatFclose, hslot]
      | some k =>
        rw [fatFclose_openFiles F s.files hslot]
        exact (entry_update (fatSlot_eq_some.mp hslot ▸ hfd)).symm

/-- The table is emptied, or the mount has failed. -/
lemma mounts (h : SessionInv s) (F : FatFs φ) (path : String) :
    SessionInv ⟨(fatMount F s.files path).2,
      if (fatMount F s.files path).1 then fun _ => false else s.opened⟩ := by
  simp only [fatMount]
  split
  · next hok =>
    refine ⟨⟨occupied_empty.symm, by simp⟩, fun fd => ?_⟩
    simp [hok]
  · next hfail =>
    simp only [decide_eq_true_eq, hfail, if_false]
    exact h.congr ⟨rfl, rfl⟩

lemma op (h : SessionInv s) (F : FatIo φ) (fd : ℤ) (o : FdOp) :
    SessionInv ⟨(fdOp F s.files fd o).2,
      if o = .fclose then Function.update s.opened fd false else s.opened⟩ := by
  cases o with
  | fread nread => exact h.congr (sameTable_fatFread F.toFatFs s.files fd nread)
  | fwrite buffer =>
    refine h.congr ?_
    simp only [fdOp, fatFwrite]
    split
    · exact SameTable.refl _
    · exact ⟨rfl, rfl⟩
  | fsize => exact h
  | fclose => exact h.closes F.toFatFs fd

lemma step (h : SessionInv s) (c : SessionCall) :
    ∃ s', sessionStep F s c = .ok s' ∧ SessionInv s' := by
  cases c with
  | mount path => exact ⟨_, rfl, h.mounts F.toFatFs path⟩
  | unmount path => exact ⟨_, rfl, h.congr ⟨rfl, rfl⟩⟩
  | fopen path mode =>
    rcases h.files.fatFopen_eq F.toFatFs path mode with ⟨files, hok, hsame⟩ | ⟨k, files, hok, hk⟩
    · exact ⟨_, by rw [sessionStep, hok]; rfl, h.congr hsame⟩
    · refine ⟨_, by rw [sessionStep, hok]; rfl, ?_⟩
      dsimp only
      rw [if_pos (by omega)]
      exact h.opens hk
  | op fd o => exact ⟨_, rfl, h.op F fd o⟩

end SessionInv

/-! ### Operations on other descriptors -/

/-- With the table `t` the operation returns 0 and leaves everything as it was, whatever the
functions of FatFs are and do: they are not called. -/
def Inert (t : Fin 10 → Option ℕ) (fd : ℤ) (o : FdOp) : Prop :=
  ∀ (φ : Type) (F : FatIo φ) (s : Files φ), s.openFiles = t → fdOp F s fd o = (some 0, s)

/-- A library that counts the calls that it is handed a file object with. -/
def counting : FatIo ℕ where
  fileRead := 1
  fMount fs _ := (.frOk, fs)
  fUnmount fs _ := (.frOk, fs)
  fOpen fs _ _ _ := (.frOk, fs + 1)
  fClose fs _ := (.frOk, fs + 1)
  fRead fs _ _ := (.frOk, [], fs + 1)
  fReadStores _ _ _ := true
  fWrite fs _ _ := (.frOk, some 0, fs + 1)
  fSize _ _ := 0

variable {t : Fin 10 → Option ℕ} {fd : ℤ}

/-- In range, `fat_fread` and `fat_fwrite` call FatFs whatever the entry is. -/
lemma not_inert_io {k : Fin 10} (hk : fatSlot fd = some k) (nread : ℕ) (buffer : List UInt8) :
    ¬ Inert t fd (.fread nread) ∧ ¬ Inert t fd (.fwrite buffer) := by
  -- a library that counts its calls is not left as it was
  constructor
  · intro h
    have hcall := congrArg (fun r => r.2.fs) (h ℕ counting ⟨0, t, .fatOk, 0⟩ rfl)
    simp only [fdOp, fatFread, hk] at hcall
    exact absurd hcall (Nat.succ_ne_zero 0)
  · intro h
    have hcall := congrArg (fun r => r.2.fs) (h ℕ counting ⟨0, t, .fatOk, 0⟩ rfl)
    simp only [fdOp, fatFwrite, hk] at hcall
    exact absurd hcall (Nat.succ_ne_zero 0)

/-- Which operations on a free entry, or on none, are inert. -/
lemma inert_iff (ht : ∀ k : Fin 10, fd = (k : ℕ) → t k = none) (o : FdOp) :
    Inert t fd o ↔ o = .fsize ∨ o = .fclose ∨ fd < 0 ∨ 10 ≤ fd := by
  rw [← fatSlot_eq_none]
  cases hslot : fatSlot fd with
  | none =>
    -- out of range every operation returns at once
    refine iff_of_true ?_ (.inr (.inr rfl))
    rintro φ F s -
    cases o <;> simp only [fdOp, fatFreadCount, fatFread, fatFwrite, fatFsize, fatFclose, hslot]
  | some k =>
    have hk := ht k (fatSlot_eq_some.mp hslot)
    have hio := @not_inert_io t fd k hslot
    cases o with
    | fread nread => exact iff_of_false (hio nread []).1 (by simp)
    | fwrite buffer => exact iff_of_false (hio 0 buffer).2 (by simp)
    | fsize =>
      refine iff_of_true ?_ (.inl rfl)
      rintro φ F s rfl
      simp only [fdOp, fatFsize, hslot, hk]
    | fclose =>
      refine iff_of_true ?_ (.inr (.inl rfl))
      rintro φ F s rfl
      simp only [fdOp, fatFclose, hslot, hk]

/-- In every session: an operation on a descriptor that does not denote an open file is inert
if and only if it is `fat_fsize` or `fat_fclose`, or the descriptor is out of range. -/
theorem session_inert_iff (F : FatIo φ) (fs : φ) (code : FatErrorCode) (calls : List SessionCall) :
    ∃ s, runE (sessionStep F) (sessionStart fs code) calls = .ok s ∧
      ∀ fd o, s.opened fd = false →
        (Inert s.files.openFiles fd o ↔ o = .fsize ∨ o = .fclose ∨ fd < 0 ∨ 10 ≤ fd) := by
  have hall : AdmissibleE (sessionStep F) (fun _ _ => True) (sessionStart fs code) calls :=
    admissibleE_of_forall (fun _ _ => trivial) _ _
  obtain ⟨s, hok, hs⟩ := hall.invariant (fun _ c h _ => h.step c) (SessionInv.start fs code)
  refine ⟨s, hok, fun fd o hfd => inert_iff ?_ o⟩
  intro k hk
  by_contra hne
  have htrue := (hs.opened fd).mpr ⟨k, hk, hne⟩
  rw [hfd] at htrue
  exact Bool.false_ne_true htrue

/-- Before anything was opened, a read from descriptor 0 hands `NULL` to FatFs. -/
theorem fread_not_inert :
    ∃ s, runE (sessionStep counting) (sessionStart 0 .fatOk) [] = .ok s ∧ s.opened 0 = false ∧
      ¬ Inert s.files.openFiles 0 (.fread 1) :=
  ⟨_, rfl, rfl, (not_inert_io (fatSlot_natCast 0) 1 []).1⟩

end EvtDrivenOs.Fat
