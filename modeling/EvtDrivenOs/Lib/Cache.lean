/-
Two levels of data cache over a memory that devices access directly.

The first level is write-through: a store updates its line if it is there and always goes
to the second level, which is write-back.  Lines are classes of addresses, given by a map
to their names.  A device sees the memory only; the CPU sees the first level, behind it
the second and behind that the memory.
-/
import Mathlib.Logic.Function.Basic
import Mathlib.Data.List.Basic

namespace EvtDrivenOs.Lib

/-- Addresses `α`, values `β`, and the names of the lines of the two levels.  The data of a
line that is not there mean nothing. -/
structure Caches (α β κ₁ κ₂ : Type*) where
  hit₁ : κ₁ → Bool
  data₁ : α → β
  hit₂ : κ₂ → Bool
  dirty : κ₂ → Bool
  data₂ : α → β
  mem : α → β

namespace Caches

variable {α β κ₁ κ₂ : Type*} {line₁ : α → κ₁} {line₂ : α → κ₂} {s : Caches α β κ₁ κ₂}

/-! ### What is seen -/

/-- What the second level and the memory hold together: it survives if the first level
is dropped. -/
def backing (line₂ : α → κ₂) (s : Caches α β κ₁ κ₂) (a : α) : β :=
  if s.hit₂ (line₂ a) then s.data₂ a else s.mem a

/-- What the CPU loads. -/
def view (line₁ : α → κ₁) (line₂ : α → κ₂) (s : Caches α β κ₁ κ₂) (a : α) : β :=
  if s.hit₁ (line₁ a) then s.data₁ a else s.backing line₂ a

/-- The first level is a copy of what is behind it. -/
def WriteThrough (line₁ : α → κ₁) (line₂ : α → κ₂) (s : Caches α β κ₁ κ₂) : Prop :=
  ∀ a, s.view line₁ line₂ a = s.backing line₂ a

/-! ### The first level -/

section First

variable [DecidableEq κ₁]

/-- A line of the first level is dropped. -/
def clear₁ (s : Caches α β κ₁ κ₂) (k : κ₁) : Caches α β κ₁ κ₂ :=
  { s with hit₁ := Function.update s.hit₁ k false }

lemma backing_clear₁ (k : κ₁) : (s.clear₁ k).backing line₂ = s.backing line₂ := rfl

lemma view_clear₁ (k : κ₁) (a : α) :
    (s.clear₁ k).view line₁ line₂ a =
      if line₁ a = k then s.backing line₂ a else s.view line₁ line₂ a := by
  rw [view, backing_clear₁]
  by_cases h : line₁ a = k
  · simp [clear₁, h]
  · simp only [clear₁, Function.update_of_ne h, if_neg h, view]

/-- A range of lines is dropped: behind it lies what it showed, if that was a copy. -/
lemma backing_foldl_clear₁ (ks : List κ₁) :
    (ks.foldl clear₁ s).backing line₂ = s.backing line₂ := by
  induction ks generalizing s with
  | nil => rfl
  | cons k ks ih => rw [List.foldl_cons, ih, backing_clear₁]

lemma mem_foldl_clear₁ (ks : List κ₁) : (ks.foldl clear₁ s).mem = s.mem := by
  induction ks generalizing s with
  | nil => rfl
  | cons k ks ih => exact ih

lemma view_foldl_clear₁ (ks : List κ₁) (a : α) :
    (ks.foldl clear₁ s).view line₁ line₂ a =
      if line₁ a ∈ ks then s.backing line₂ a else s.view line₁ line₂ a := by
  induction ks generalizing s with
  | nil => simp
  | cons k ks ih =>
    rw [List.foldl_cons, ih, backing_clear₁, view_clear₁]
    by_cases hk : line₁ a = k
    · simp [hk]
    · simp [hk]

end First

/-! ### The second level -/

section Second

variable [DecidableEq κ₂]

/-- A line of the second level is dropped, dirty or not. -/
def clear₂ (s : Caches α β κ₁ κ₂) (k : κ₂) : Caches α β κ₁ κ₂ :=
  { s with
    hit₂ := Function.update s.hit₂ k false
    dirty := Function.update s.dirty k false }

/-- A line of the second level is written back if it is dirty. -/
def flush₂ (line₂ : α → κ₂) (s : Caches α β κ₁ κ₂) (k : κ₂) : Caches α β κ₁ κ₂ :=
  { s with
    mem := fun a => if line₂ a = k ∧ s.hit₂ k ∧ s.dirty k then s.data₂ a else s.mem a
    dirty := Function.update s.dirty k false }

/-- The second level gets the line of `a` unless it has it. -/
def fetch₂ (line₂ : α → κ₂) (s : Caches α β κ₁ κ₂) (a : α) : Caches α β κ₁ κ₂ :=
  if s.hit₂ (line₂ a) then s
  else
    { s with
      hit₂ := Function.update s.hit₂ (line₂ a) true
      dirty := Function.update s.dirty (line₂ a) false
      data₂ := fun b => if line₂ b = line₂ a then s.mem b else s.data₂ b }

lemma backing_clear₂ (k : κ₂) (a : α) :
    (s.clear₂ k).backing line₂ a = if line₂ a = k then s.mem a else s.backing line₂ a := by
  by_cases h : line₂ a = k
  · simp [backing, clear₂, h]
  · simp only [backing, clear₂, Function.update_of_ne h, if_neg h]

lemma backing_flush₂ (k : κ₂) : (s.flush₂ line₂ k).backing line₂ = s.backing line₂ := by
  funext a
  by_cases h : s.hit₂ (line₂ a)
  · simp [flush₂, backing, h]
  · have hk : ¬ (line₂ a = k ∧ s.hit₂ k ∧ s.dirty k) := by
      rintro ⟨rfl, hk, -⟩
      exact h hk
    simp only [flush₂, backing, if_neg h, if_neg hk]

lemma backing_fetch₂ (a : α) : (s.fetch₂ line₂ a).backing line₂ = s.backing line₂ := by
  funext b
  by_cases h : s.hit₂ (line₂ a)
  · rw [fetch₂, if_pos h]
  · by_cases hb : line₂ b = line₂ a
    · simp [fetch₂, h, backing, hb]
    · simp [fetch₂, h, backing, hb]

lemma hit₂_fetch₂ (a : α) : (s.fetch₂ line₂ a).hit₂ (line₂ a) = true := by
  by_cases h : s.hit₂ (line₂ a)
  · rw [fetch₂, if_pos h, h]
  · simp [fetch₂, h]

/-- What a fetch leaves alone. -/
lemma fetch₂_rest (line₂ : α → κ₂) (s : Caches α β κ₁ κ₂) (a : α) :
    (s.fetch₂ line₂ a).mem = s.mem ∧ (s.fetch₂ line₂ a).hit₁ = s.hit₁ ∧
      (s.fetch₂ line₂ a).data₁ = s.data₁ := by
  rw [fetch₂]
  split
  · exact ⟨rfl, rfl, rfl⟩
  · exact ⟨rfl, rfl, rfl⟩

/-- Dirty lines of the second level that are there, which are what a flush writes back. -/
def Pending (s : Caches α β κ₁ κ₂) (k : κ₂) : Prop := s.hit₂ k = true ∧ s.dirty k = true

lemma pending_fetch₂ {k : κ₂} (h : s.Pending k) (a : α) : (s.fetch₂ line₂ a).Pending k := by
  by_cases ha : s.hit₂ (line₂ a)
  · rwa [fetch₂, if_pos ha]
  · have hk : k ≠ line₂ a := by
      rintro rfl
      exact ha h.1
    rw [fetch₂, if_neg ha]
    exact ⟨(Function.update_of_ne hk _ _).trans h.1, (Function.update_of_ne hk _ _).trans h.2⟩

lemma foldl_clear₂ (line₂ : α → κ₂) (s : Caches α β κ₁ κ₂) (ks : List κ₂) :
    (ks.foldl clear₂ s).mem = s.mem ∧ ∀ a, (ks.foldl clear₂ s).backing line₂ a =
      if line₂ a ∈ ks then s.mem a else s.backing line₂ a := by
  induction ks generalizing s with
  | nil => simp
  | cons k ks ih =>
    obtain ⟨hmem, hback⟩ := ih (s.clear₂ k)
    rw [List.foldl_cons]
    refine ⟨hmem, fun a => ?_⟩
    rw [hback, backing_clear₂]
    by_cases hk : line₂ a = k
    · simp [hk, clear₂]
    · simp [hk, clear₂]

/-- The processor sees no difference where the lines that are dropped hold what the memory
holds. -/
lemma view_foldl_clear₂ (line₁ : α → κ₁) (ks : List κ₂) {a : α}
    (h : line₂ a ∈ ks → s.view line₁ line₂ a = s.mem a) :
    (ks.foldl clear₂ s).view line₁ line₂ a = s.view line₁ line₂ a := by
  induction ks generalizing s with
  | nil => rfl
  | cons k ks ih =>
    have hview : (s.clear₂ k).view line₁ line₂ a = s.view line₁ line₂ a := by
      rw [view, backing_clear₂]
      by_cases hk : line₂ a = k
      · rw [if_pos hk, ← h (hk ▸ List.mem_cons_self), view]
        by_cases h₁ : s.hit₁ (line₁ a)
        · simp only [clear₂, h₁, if_true]
        · simp only [clear₂, h₁, Bool.false_eq_true, if_false]
      · rw [if_neg hk]
        rfl
    rw [List.foldl_cons, ih, hview]
    intro hmem
    rw [hview]
    exact h (List.mem_cons_of_mem _ hmem)

lemma mem_flush₂_of_pending {a : α} (h : s.Pending (line₂ a)) :
    (s.flush₂ line₂ (line₂ a)).mem a = s.backing line₂ a := by
  rw [backing, if_pos h.1]
  exact if_pos ⟨rfl, h.1, h.2⟩

/-- A value that the memory has already stays there. -/
lemma mem_flush₂_of_synced {a : α} (h : s.mem a = s.backing line₂ a) (k : κ₂) :
    (s.flush₂ line₂ k).mem a = s.backing line₂ a := by
  by_cases hk : line₂ a = k ∧ s.hit₂ k ∧ s.dirty k
  · obtain ⟨rfl, hpend⟩ := hk
    exact mem_flush₂_of_pending hpend
  · exact (if_neg hk).trans h

lemma backing_foldl_flush₂ (ks : List κ₂) :
    (ks.foldl (flush₂ line₂) s).backing line₂ = s.backing line₂ := by
  induction ks generalizing s with
  | nil => rfl
  | cons k ks ih => rw [List.foldl_cons, ih, backing_flush₂]

lemma mem_foldl_flush₂_of_synced {a : α} (ks : List κ₂) (h : s.mem a = s.backing line₂ a) :
    (ks.foldl (flush₂ line₂) s).mem a = s.backing line₂ a := by
  induction ks generalizing s with
  | nil => exact h
  | cons k ks ih =>
    have hk := mem_flush₂_of_synced h k
    have hback : (s.flush₂ line₂ k).backing line₂ = s.backing line₂ := backing_flush₂ k
    rw [← hback] at hk ⊢
    exact ih hk

lemma view_foldl_flush₂ (line₁ : α → κ₁) (ks : List κ₂) :
    (ks.foldl (flush₂ line₂) s).view line₁ line₂ = s.view line₁ line₂ := by
  induction ks generalizing s with
  | nil => rfl
  | cons k ks ih =>
    rw [List.foldl_cons, ih]
    funext a
    rw [view, backing_flush₂, view]
    rfl

/-- A write-back puts nothing into the memory but what was seen there. -/
lemma mem_foldl_flush₂_or (ks : List κ₂) (a : α) :
    (ks.foldl (flush₂ line₂) s).mem a = s.mem a ∨
      (ks.foldl (flush₂ line₂) s).mem a = s.backing line₂ a := by
  induction ks generalizing s with
  | nil => exact Or.inl rfl
  | cons k ks ih =>
    rw [List.foldl_cons]
    rcases ih (s := s.flush₂ line₂ k) with hmem | hback
    · rw [hmem]
      by_cases h : line₂ a = k ∧ s.hit₂ k ∧ s.dirty k
      · right
        rw [flush₂, backing, if_pos (h.1 ▸ h.2.1)]
        exact if_pos h
      · left
        exact if_neg h
    · right
      rw [hback, backing_flush₂]

/-- A flush of several lines shows the devices what is pending in them. -/
lemma mem_foldl_flush₂ {a : α} {ks : List κ₂} (ha : line₂ a ∈ ks) (h : s.Pending (line₂ a)) :
    (ks.foldl (flush₂ line₂) s).mem a = s.backing line₂ a := by
  induction ks generalizing s with
  | nil => cases ha
  | cons k ks ih =>
    have hback : (s.flush₂ line₂ k).backing line₂ = s.backing line₂ := backing_flush₂ k
    rw [List.foldl_cons, ← hback]
    by_cases hk : line₂ a = k
    · refine mem_foldl_flush₂_of_synced ks ?_
      rw [hback, ← hk]
      exact mem_flush₂_of_pending h
    · refine ih ((List.mem_cons.mp ha).resolve_left hk) ⟨h.1, ?_⟩
      exact (Function.update_of_ne hk _ _).trans h.2

end Second

/-! ### Loads and stores -/

section Load

variable [DecidableEq κ₁] [DecidableEq κ₂]

/-- A load of `a`, which fetches the lines that are missing. -/
def load (line₁ : α → κ₁) (line₂ : α → κ₂) (s : Caches α β κ₁ κ₂) (a : α) : Caches α β κ₁ κ₂ :=
  if s.hit₁ (line₁ a) then s
  else
    let t := s.fetch₂ line₂ a
    { t with
      hit₁ := Function.update t.hit₁ (line₁ a) true
      data₁ := fun b => if line₁ b = line₁ a then t.backing line₂ b else t.data₁ b }

lemma backing_load (a : α) : (s.load line₁ line₂ a).backing line₂ = s.backing line₂ := by
  rw [load]
  split
  · rfl
  · exact backing_fetch₂ a

lemma view_load (a : α) : (s.load line₁ line₂ a).view line₁ line₂ = s.view line₁ line₂ := by
  funext b
  rw [view, backing_load]
  by_cases h : s.hit₁ (line₁ a)
  · rw [load, if_pos h, view]
  · obtain ⟨-, hhit, hdata⟩ := fetch₂_rest line₂ s a
    by_cases hb : line₁ b = line₁ a
    · simp [load, h, hb, backing_fetch₂, view]
    · simp [load, h, hb, view, hhit, hdata]

lemma pending_load {k : κ₂} (h : s.Pending k) (a : α) : (s.load line₁ line₂ a).Pending k := by
  rw [load]
  split
  · exact h
  · exact pending_fetch₂ h a

lemma mem_load (a : α) : (s.load line₁ line₂ a).mem = s.mem := by
  rw [Caches.load]
  split
  · rfl
  · exact (fetch₂_rest line₂ s a).1

end Load

section Store

variable [DecidableEq α] [DecidableEq κ₂]

/-- A store: the line is fetched, then both levels get the value, and the line is dirty. -/
def store (line₂ : α → κ₂) (s : Caches α β κ₁ κ₂) (a : α) (v : β) : Caches α β κ₁ κ₂ :=
  let t := s.fetch₂ line₂ a
  { t with
    data₁ := Function.update t.data₁ a v
    data₂ := Function.update t.data₂ a v
    dirty := Function.update t.dirty (line₂ a) true }

lemma backing_store (a : α) (v : β) (b : α) :
    (s.store line₂ a v).backing line₂ b = if b = a then v else s.backing line₂ b := by
  have hback : (s.fetch₂ line₂ a).backing line₂ = s.backing line₂ := backing_fetch₂ a
  rw [← hback]
  by_cases hb : b = a
  · simp [store, backing, hb, hit₂_fetch₂]
  · simp [store, backing, hb]

lemma view_store (a : α) (v : β) (b : α) :
    (s.store line₂ a v).view line₁ line₂ b = if b = a then v else s.view line₁ line₂ b := by
  obtain ⟨-, hhit, hdata⟩ := fetch₂_rest line₂ s a
  rw [view, backing_store]
  by_cases hb : b = a
  · simp [store, hb]
  · simp [store, hb, view, hhit, hdata]

lemma pending_store_self (a : α) (v : β) : (s.store line₂ a v).Pending (line₂ a) :=
  ⟨hit₂_fetch₂ a, Function.update_self _ _ _⟩

lemma pending_store {k : κ₂} (h : s.Pending k) (a : α) (v : β) : (s.store line₂ a v).Pending k := by
  by_cases hk : k = line₂ a
  · exact hk ▸ pending_store_self a v
  · have hf : (s.fetch₂ line₂ a).Pending k := pending_fetch₂ h a
    exact ⟨hf.1, (Function.update_of_ne hk _ _).trans hf.2⟩

lemma mem_store (a : α) (v : β) : (s.store line₂ a v).mem = s.mem := (fetch₂_rest line₂ s a).1

end Store

/-! ### Observers -/

section Observer

variable [DecidableEq α] [DecidableEq κ₁] [DecidableEq κ₂]

/-- A way to look at the memory that loads leave as it is and stores update. -/
structure Observer (line₁ : α → κ₁) (line₂ : α → κ₂) (f : Caches α β κ₁ κ₂ → α → β) : Prop where
  load : ∀ s a, f (s.load line₁ line₂ a) = f s
  store : ∀ s a v b, f (s.store line₂ a v) b = if b = a then v else f s b

lemma observer_view : Observer (β := β) line₁ line₂ (view line₁ line₂) :=
  ⟨fun _ a => view_load a, fun _ a v b => view_store a v b⟩

lemma observer_backing : Observer (β := β) line₁ line₂ (backing line₂) :=
  ⟨fun _ a => backing_load a, fun _ a v b => backing_store a v b⟩

end Observer

/-! ### Copying -/

section Copy

variable [DecidableEq α] [DecidableEq κ₁] [DecidableEq κ₂]

/-- The value at `p.2` is copied to `p.1`. -/
def copy (line₁ : α → κ₁) (line₂ : α → κ₂) (s : Caches α β κ₁ κ₂) (p : α × α) : Caches α β κ₁ κ₂ :=
  (s.load line₁ line₂ p.2).store line₂ p.1 (s.view line₁ line₂ p.2)

lemma backing_copy (p : α × α) (a : α) :
    (s.copy line₁ line₂ p).backing line₂ a =
      if a = p.1 then s.view line₁ line₂ p.2 else s.backing line₂ a := by
  rw [copy, backing_store, backing_load]

lemma view_copy (p : α × α) (a : α) :
    (s.copy line₁ line₂ p).view line₁ line₂ a =
      if a = p.1 then s.view line₁ line₂ p.2 else s.view line₁ line₂ a := by
  rw [copy, view_store, view_load]

lemma pending_foldl_copy {k : κ₂} (h : s.Pending k) (ps : List (α × α)) :
    (ps.foldl (copy line₁ line₂) s).Pending k := by
  induction ps generalizing s with
  | nil => exact h
  | cons p ps ih => exact ih (pending_store (pending_load h p.2) p.1 _)

lemma backing_foldl_copy_of_not_mem {a : α} {ps : List (α × α)} (ha : a ∉ ps.map Prod.fst) :
    (ps.foldl (copy line₁ line₂) s).backing line₂ a = s.backing line₂ a := by
  induction ps generalizing s with
  | nil => rfl
  | cons p ps ih =>
    rw [List.map_cons, List.mem_cons, not_or] at ha
    rw [List.foldl_cons, ih ha.2, backing_copy, if_neg ha.1]

/-- A copy between disjoint places leaves at each place what was seen at its source, to be
written back. -/
lemma foldl_copy {ps : List (α × α)} (hnodup : (ps.map Prod.fst).Nodup)
    (hdisj : ∀ p ∈ ps, ∀ q ∈ ps, q.2 ≠ p.1) {p : α × α} (hp : p ∈ ps) :
    (ps.foldl (copy line₁ line₂) s).backing line₂ p.1 = s.view line₁ line₂ p.2 ∧
      (ps.foldl (copy line₁ line₂) s).Pending (line₂ p.1) := by
  induction ps generalizing s with
  | nil => cases hp
  | cons q ps ih =>
    rw [List.map_cons, List.nodup_cons] at hnodup
    rw [List.foldl_cons]
    rcases List.mem_cons.mp hp with rfl | hmem
    · refine ⟨?_, pending_foldl_copy (pending_store_self _ _) ps⟩
      rw [backing_foldl_copy_of_not_mem hnodup.1, backing_copy, if_pos rfl]
    · have hne : p.2 ≠ q.1 := hdisj q List.mem_cons_self p hp
      have htail : ∀ p ∈ ps, ∀ q ∈ ps, q.2 ≠ p.1 := fun p hp q hq =>
        hdisj p (List.mem_cons_of_mem _ hp) q (List.mem_cons_of_mem _ hq)
      have h := ih (s := s.copy line₁ line₂ q) hnodup.2 htail hmem
      rwa [view_copy, if_neg hne] at h

/-- The same for whoever looks. -/
lemma Observer.foldl_copy_of_not_mem {f : Caches α β κ₁ κ₂ → α → β} (hf : Observer line₁ line₂ f)
    {a : α} {ps : List (α × α)} (ha : a ∉ ps.map Prod.fst) :
    f (ps.foldl (copy line₁ line₂) s) a = f s a := by
  induction ps generalizing s with
  | nil => rfl
  | cons p ps ih =>
    rw [List.map_cons, List.mem_cons, not_or] at ha
    rw [List.foldl_cons, ih ha.2, copy, hf.store, if_neg ha.1, hf.load]

lemma Observer.foldl_copy {f : Caches α β κ₁ κ₂ → α → β} (hf : Observer line₁ line₂ f)
    {ps : List (α × α)} (hnodup : (ps.map Prod.fst).Nodup)
    (hdisj : ∀ p ∈ ps, ∀ q ∈ ps, q.2 ≠ p.1) {p : α × α} (hp : p ∈ ps) :
    f (ps.foldl (copy line₁ line₂) s) p.1 = s.view line₁ line₂ p.2 := by
  induction ps generalizing s with
  | nil => cases hp
  | cons q ps ih =>
    rw [List.map_cons, List.nodup_cons] at hnodup
    rw [List.foldl_cons]
    rcases List.mem_cons.mp hp with rfl | hmem
    · rw [hf.foldl_copy_of_not_mem hnodup.1, copy, hf.store, if_pos rfl]
    · have hne : p.2 ≠ q.1 := hdisj q List.mem_cons_self p hp
      have htail : ∀ p ∈ ps, ∀ q ∈ ps, q.2 ≠ p.1 := fun p hp q hq =>
        hdisj p (List.mem_cons_of_mem _ hp) q (List.mem_cons_of_mem _ hq)
      rw [ih hnodup.2 htail hmem, view_copy, if_neg hne]

end Copy

/-! ### Clean lines -/

/-- Where nothing is pending, the memory has what lies behind the first level. -/
def Settled (line₂ : α → κ₂) (s : Caches α β κ₁ κ₂) (a : α) : Prop :=
  ¬ s.Pending (line₂ a) → s.backing line₂ a = s.mem a

section Settled

variable {a : α}

lemma settled_clear₁ [DecidableEq κ₁] (h : s.Settled line₂ a) (k : κ₁) :
    (s.clear₁ k).Settled line₂ a := h

variable [DecidableEq κ₂]

lemma settled_clear₂ (h : s.Settled line₂ a) (k : κ₂) : (s.clear₂ k).Settled line₂ a := by
  intro hpend
  rw [backing_clear₂]
  split
  case isTrue => rfl
  case isFalse hk =>
    refine h fun hold => hpend ⟨?_, ?_⟩
    · exact (Function.update_of_ne hk _ _).trans hold.1
    · exact (Function.update_of_ne hk _ _).trans hold.2

lemma settled_flush₂ (h : s.Settled line₂ a) (k : κ₂) : (s.flush₂ line₂ k).Settled line₂ a := by
  intro hpend
  rw [backing_flush₂]
  by_cases hold : s.Pending (line₂ a)
  · by_cases hk : line₂ a = k
    · exact (hk ▸ mem_flush₂_of_pending hold).symm
    · exact absurd ⟨hold.1, (Function.update_of_ne hk _ _).trans hold.2⟩ hpend
  · exact (mem_flush₂_of_synced (h hold).symm k).symm

lemma settled_store [DecidableEq α] (h : s.Settled line₂ a) (b : α) (v : β) :
    (s.store line₂ b v).Settled line₂ a := by
  intro hpend
  have hne : a ≠ b := by
    rintro rfl
    exact hpend (pending_store_self _ _)
  rw [backing_store, if_neg hne, mem_store]
  exact h fun hold => hpend (pending_store hold b v)

lemma settled_load [DecidableEq κ₁] (h : s.Settled line₂ a) (b : α) :
    (s.load line₁ line₂ b).Settled line₂ a := by
  intro hpend
  rw [backing_load, mem_load]
  exact h fun hold => hpend (pending_load hold b)

lemma settled_copy [DecidableEq α] [DecidableEq κ₁] (h : s.Settled line₂ a) (p : α × α) :
    (s.copy line₁ line₂ p).Settled line₂ a :=
  settled_store (settled_load h p.2) p.1 _

/-- A line that is written back and dropped makes no difference behind the first level. -/
lemma backing_evict {k : κ₂} (h : s.Settled line₂ a) :
    ((s.flush₂ line₂ k).clear₂ k).backing line₂ a = s.backing line₂ a := by
  rw [backing_clear₂, backing_flush₂]
  split
  case isTrue hk =>
    by_cases hpend : s.Pending (line₂ a)
    · exact hk ▸ mem_flush₂_of_pending hpend
    · exact mem_flush₂_of_synced (h hpend).symm k
  case isFalse => rfl

end Settled

end Caches

end EvtDrivenOs.Lib
