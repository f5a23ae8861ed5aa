/-
The work areas of the mounted volumes.

`fat_mount` hands FatFs the same object `disk_fat` whatever volume the path names.  So two
volumes have the same work area as soon as both are registered.
-/
import EvtDrivenOs.Fat.Table
import Mathlib.Data.Fin.Basic

namespace EvtDrivenOs.Fat

open EvtDrivenOs.Lib

/-! ### The volumes of FatFs -/

/-- `FF_VOLUMES` -/
abbrev ffVolumes : ℕ := 4

/-- Objects of type `FATFS`, numbered. -/
abbrev Fatfs := ℕ

/-- `&disk_fat` -/
def diskFat : Fatfs := 0

/-- The functions of FatFs that mount and unmount, with the object that `f_mount` is given.
`volume` is the volume that a path names, and `workArea` the registered objects. -/
structure FatVolumes (φ : Type*) where
  fMount : φ → Fatfs → String → Fresult × φ
  fUnmount : φ → String → Fresult × φ
  volume : φ → String → Option (Fin ffVolumes)
  workArea : φ → Fin ffVolumes → Option Fatfs

variable {φ : Type*}

/-- FatFs as `fat.c` calls it. -/
def FatFs.withVolumes (F : FatFs φ) (V : FatVolumes φ) : FatFs φ :=
  { F with
    fMount := fun fs path => V.fMount fs diskFat path
    fUnmount := V.fUnmount }

/-- `f_mount` that succeeds registers its object for the volume that the path names.  One
that fails may have done so, or has changed nothing.  `f_unmount` removes the object. -/
structure Registers (V : FatVolumes φ) : Prop where
  mount : ∀ s fs path, (V.fMount s fs path).1 = .frOk →
    ∃ v, V.volume s path = some v ∧
      V.workArea (V.fMount s fs path).2 = Function.update (V.workArea s) v (some fs)
  mount_fails : ∀ s fs path, (V.fMount s fs path).1 ≠ .frOk →
    V.workArea (V.fMount s fs path).2 = V.workArea s ∨
      ∃ v, V.volume s path = some v ∧
        V.workArea (V.fMount s fs path).2 = Function.update (V.workArea s) v (some fs)
  unmount : ∀ s path, (V.fUnmount s path).1 = .frOk →
    ∃ v, V.volume s path = some v ∧
      V.workArea (V.fUnmount s path).2 = Function.update (V.workArea s) v none
  unmount_fails : ∀ s path, (V.fUnmount s path).1 ≠ .frOk →
    V.workArea (V.fUnmount s path).2 = V.workArea s

/-- Different volumes have different work areas. -/
def Distinct (V : FatVolumes φ) (s : Files φ) : Prop :=
  ∀ u v a, V.workArea s.fs u = some a → V.workArea s.fs v = some a → u = v

/-! ### Runs -/

/-- The calls that change which volumes are mounted. -/
inductive MountCall
  | mount (path : String)
  | unmount (path : String)
deriving DecidableEq, Repr

/-- What a call does. -/
def mountStep (F : FatFs φ) (V : FatVolumes φ) (s : Files φ) : MountCall → Files φ
  | .mount path => (fatMount (F.withVolumes V) s path).2
  | .unmount path => (fatUnmount (F.withVolumes V) s path).2

/-- A volume is registered while no other is. -/
def MountsAlone (V : FatVolumes φ) (s : Files φ) : MountCall → Prop
  | .mount path => ∀ v, V.volume s.fs path = some v →
    V.workArea (V.fMount s.fs diskFat path).2 v ≠ none → ∀ u ≠ v, V.workArea s.fs u = none
  | .unmount _ => True

variable {F : FatFs φ} {V : FatVolumes φ} {s : Files φ}

lemma fs_fatMount (path : String) :
    (fatMount (F.withVolumes V) s path).2.fs = (V.fMount s.fs diskFat path).2 := by
  simp only [fatMount]
  split <;> rfl

/-- What a call does to the work areas. -/
inductive AreaChange (V : FatVolumes φ) (s s' : Files φ) : MountCall → Prop
  | keep {c : MountCall} (h : V.workArea s'.fs = V.workArea s.fs) : AreaChange V s s' c
  | register {path : String} {v : Fin ffVolumes} (hv : V.volume s.fs path = some v)
      (h : V.workArea s'.fs = Function.update (V.workArea s.fs) v (some diskFat)) :
      AreaChange V s s' (.mount path)
  | remove {path : String} {v : Fin ffVolumes}
      (h : V.workArea s'.fs = Function.update (V.workArea s.fs) v none) :
      AreaChange V s s' (.unmount path)

lemma Registers.areaChange (hV : Registers V) (c : MountCall) :
    AreaChange V s (mountStep F V s c) c := by
  cases c with
  | mount path =>
    have hfs : (mountStep F V s (.mount path)).fs = (V.fMount s.fs diskFat path).2 :=
      fs_fatMount path
    by_cases hok : (V.fMount s.fs diskFat path).1 = .frOk
    · obtain ⟨v, hv, h⟩ := hV.mount _ _ _ hok
      exact .register hv (by rw [hfs, h])
    · rcases hV.mount_fails _ _ _ hok with h | ⟨v, hv, h⟩
      · exact .keep (by rw [hfs, h])
      · exact .register hv (by rw [hfs, h])
  | unmount path =>
    by_cases hok : (V.fUnmount s.fs path).1 = .frOk
    · obtain ⟨v, -, h⟩ := hV.unmount _ _ hok
      exact .remove h
    · exact .keep (hV.unmount_fails _ _ hok)

/-- Every registered work area is `disk_fat`. -/
def AllDiskFat (V : FatVolumes φ) (s : Files φ) : Prop :=
  ∀ v a, V.workArea s.fs v = some a → a = diskFat

lemma AllDiskFat.step (hV : Registers V) (h : AllDiskFat V s) (c : MountCall) :
    AllDiskFat V (mountStep F V s c) := by
  intro u a hu
  cases hV.areaChange (F := F) (s := s) c with
  | keep harea => exact h u a (harea ▸ hu)
  | @register _ v _ harea =>
    rw [harea, Function.update_apply] at hu
    split at hu
    · exact (Option.some.inj hu).symm
    · exact h u a hu
  | @remove _ v harea =>
    rw [harea, Function.update_apply] at hu
    split at hu
    · cases hu
    · exact h u a hu

/-- So volumes have different work areas if and only if one is registered at most. -/
lemma AllDiskFat.distinct_iff (h : AllDiskFat V s) :
    Distinct V s ↔ ∀ v, V.workArea s.fs v ≠ none → ∀ u ≠ v, V.workArea s.fs u = none := by
  constructor
  · intro hd v hv u hne
    by_contra hu
    obtain ⟨a, ha⟩ := Option.ne_none_iff_exists'.1 hv
    obtain ⟨b, hb⟩ := Option.ne_none_iff_exists'.1 hu
    rw [h v a ha] at ha
    rw [h u b hb] at hb
    exact hne (hd u v _ hb ha)
  · intro hone u v a hu hv
    by_contra hne
    have hnone := hone v (by simp [hv]) u hne
    rw [hu] at hnone
    cases hnone

/-- A call keeps the work areas apart if and only if it registers no second volume. -/
lemma distinct_step_iff (hV : Registers V) (h : AllDiskFat V s) (hd : Distinct V s)
    (c : MountCall) : Distinct V (mountStep F V s c) ↔ MountsAlone V s c := by
  rw [(h.step hV c).distinct_iff]
  rw [h.distinct_iff] at hd
  cases c with
  | mount path =>
    have hfs : (mountStep F V s (.mount path)).fs = (V.fMount s.fs diskFat path).2 :=
      fs_fatMount path
    rw [MountsAlone, ← hfs]
    cases hV.areaChange (F := F) (s := s) (.mount path) with
    | keep harea =>
      rw [harea]
      exact iff_of_true hd fun v _ hv => hd v hv
    | @register _ v hv harea =>
      rw [harea]
      constructor
      · intro hone w hw hwne u hne
        have hnone := hone w hwne u hne
        rw [hv] at hw
        rwa [Function.update_of_ne (Option.some.inj hw ▸ hne)] at hnone
      · intro halone w hw u hne
        -- no volume other than `v` is registered, before and after
        have hothers := halone v hv (by simp)
        rcases eq_or_ne w v with rfl | hwv
        · rw [Function.update_of_ne hne]
          exact hothers u hne
        · rw [Function.update_of_ne hwv, hothers w hwv] at hw
          exact absurd rfl hw
  | unmount path =>
    refine iff_of_true (fun w hw u hne => ?_) trivial
    cases hV.areaChange (F := F) (s := s) (.unmount path) with
    | keep harea =>
      rw [harea] at hw ⊢
      exact hd w hw u hne
    | @remove _ v harea =>
      rw [harea, Function.update_apply] at hw ⊢
      split at hw
      · exact absurd rfl hw
      · split
        · rfl
        · exact hd w hw u hne

/-- **The work areas of the volumes are different** all along a run of mounts and unmounts if
and only if no volume is ever registered while another one is. -/
theorem fatMount_distinct_iff (hV : Registers V) (F : FatFs φ)
    (hs : ∀ v, V.workArea s.fs v = none) (calls : List MountCall) :
    (∀ pre, pre <+: calls → Distinct V (run (mountStep F V) s pre)) ↔
      Admissible (mountStep F V) (MountsAlone V) s calls := by
  have hall : AllDiskFat V s := by
    intro v a hv
    rw [hs v] at hv
    cases hv
  have hd : Distinct V s := by
    intro u v a hu
    rw [hs u] at hu
    cases hu
  have hstep (s : Files φ) (c : MountCall) (h : AllDiskFat V s) :
      AllDiskFat V (mountStep F V s c) := h.step hV c
  have hkeeps (s : Files φ) (c : MountCall) (h : AllDiskFat V s) (hd : Distinct V s) :
      Distinct V (mountStep F V s c) ↔ MountsAlone V s c := distinct_step_iff hV h hd c
  exact admissible_iff_forall_prefix hstep hkeeps hall hd

/-! ### Four working drives -/

/-- The volumes of FatFs: the work area of each, where it has one. -/
abbrev WorkAreas := Fin ffVolumes → Option Fatfs

/-- The volume with this letter. -/
def driveOf (path : String) : Option (Fin ffVolumes) :=
  match path.toList with
  | ['C', ':'] => some 0
  | ['D', ':'] => some 1
  | ['E', ':'] => some 2
  | ['F', ':'] => some 3
  | _ => none

/-- `f_mount` with `some fs`, and `f_unmount` with `none`; the error is `FR_INVALID_DRIVE`. -/
def setArea (areas : WorkAreas) (fs : Option Fatfs) (path : String) : Fresult × WorkAreas :=
  match driveOf path with
  | none => (.other 11, areas)
  | some v => (.frOk, Function.update areas v fs)

/-- A FatFs that has just its volumes. -/
def drives : FatVolumes WorkAreas where
  fMount areas fs path := setArea areas (some fs) path
  fUnmount areas path := setArea areas none path
  volume _ path := driveOf path
  workArea areas := areas

lemma setArea_spec (areas : WorkAreas) (fs : Option Fatfs) (path : String) :
    ((setArea areas fs path).1 = .frOk →
        ∃ v, driveOf path = some v ∧ (setArea areas fs path).2 = Function.update areas v fs) ∧
      ((setArea areas fs path).1 ≠ .frOk → (setArea areas fs path).2 = areas) := by
  rw [setArea]
  cases driveOf path with
  | none => exact ⟨nofun, fun _ => rfl⟩
  | some v => exact ⟨fun _ => ⟨v, rfl, rfl⟩, fun h => absurd rfl h⟩

lemma registers_drives : Registers drives where
  mount areas fs path := (setArea_spec areas (some fs) path).1
  mount_fails areas fs path h := .inl ((setArea_spec areas (some fs) path).2 h)
  unmount areas path := (setArea_spec areas none path).1
  unmount_fails areas path := (setArea_spec areas none path).2

/-- No files are ever opened there. -/
def noFiles : FatFs WorkAreas where
  fileRead := 1
  fMount areas _ := (.frOk, areas)
  fUnmount areas _ := (.frOk, areas)
  fOpen areas _ _ _ := (.frNoFile, areas)
  fClose areas _ := (.frOk, areas)
  fRead areas _ _ := (.frDiskErr, [], areas)

/-- Nothing is mounted. -/
def unmounted : Files WorkAreas := ⟨0, fun _ => none, .fatOk, fun _ => none⟩

theorem fatMount_distinct_iff_swap :
    (∀ pre, pre <+: [.mount "C:", .unmount "C:", .mount "D:"] →
        Distinct drives (run (mountStep noFiles drives) unmounted pre)) ↔
      Admissible (mountStep noFiles drives) (MountsAlone drives) unmounted
        [.mount "C:", .unmount "C:", .mount "D:"] :=
  fatMount_distinct_iff registers_drives noFiles (fun _ => rfl) _

/-- Mounting a second volume gives it the work area of the first. -/
theorem fatMount_shared :
    ¬ Distinct drives (run (mountStep noFiles drives) unmounted [.mount "C:", .mount "D:"]) :=
  fun h => absurd (h 0 1 diskFat rfl rfl) (by decide)

end EvtDrivenOs.Fat
