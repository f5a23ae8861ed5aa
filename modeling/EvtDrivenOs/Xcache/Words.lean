/-
Words in the caches, and what loads and stores do to the memory that somebody sees.

Stores are described by what they do to an `image` of the memory, whoever looks at it: the
processor through both caches, or what is behind the first of them.
-/
import EvtDrivenOs.Lib.Paging
import EvtDrivenOs.Xcache

namespace EvtDrivenOs.Xcache

open EvtDrivenOs.Lib

/-! ### Loads and stores -/

/-- `memset` -/
def memset (c : DCache) (s : Addr) (v : Byte) : ℕ → DCache
  | 0 => c
  | n + 1 => memset (c.store l2Line s v) (s + 1) v n

/-- A word is stored with its lowest byte first. -/
def storeWord (c : DCache) (a : Addr) (w : BitVec 32) : DCache :=
  (((c.store l2Line a (w.extractLsb' 0 8)).store l2Line (a + 1) (w.extractLsb' 8 8)).store
    l2Line (a + 2) (w.extractLsb' 16 8)).store l2Line (a + 3) (w.extractLsb' 24 8)

/-- The word at an address of some memory. -/
def word (m : Addr → Byte) (a : Addr) : BitVec 32 := m (a + 3) ++ m (a + 2) ++ m (a + 1) ++ m a

/-- A load of a word: what the processor sees, and the caches after it. -/
def loadWord (c : DCache) (a : Addr) : BitVec 32 × DCache :=
  (word (c.view l1Line l2Line) a,
    (((c.load l1Line l2Line a).load l1Line l2Line (a + 1)).load l1Line l2Line (a + 2)).load
      l1Line l2Line (a + 3))

/-- An assignment to a bit field, which replaces its bits in the word that contains it. -/
def modifyWord (c : DCache) (a : Addr) (f : BitVec 32 → BitVec 32) : DCache :=
  let (w, c) := loadWord c a
  storeWord c a (f w)

/-! ### Images of the memory -/

/-- The bytes of a memory, by number. -/
def image (m : Addr → Byte) : Paging.Mem := fun x =>
  if x < 2 ^ 32 then m (BitVec.ofNat 32 x) else 0

lemma image_toNat (m : Addr → Byte) (a : Addr) : image m a.toNat = m a := by
  rw [image, if_pos a.isLt, BitVec.ofNat_toNat, BitVec.setWidth_eq]

lemma toNat_add_of_le {a : Addr} {j : ℕ} (h : a.toNat + j < 2 ^ 32) :
    (a + BitVec.ofNat 32 j).toNat = a.toNat + j := by
  rw [BitVec.toNat_add, BitVec.toNat_ofNat]
  omega

/-- A word is made up of four bytes. -/
lemma toNat_append_bytes (b₃ b₂ b₁ b₀ : Byte) : (b₃ ++ b₂ ++ b₁ ++ b₀ : BitVec 32).toNat =
    b₀.toNat + b₁.toNat * 2 ^ 8 + b₂.toNat * 2 ^ 16 + b₃.toNat * 2 ^ 24 := by
  have h₀ := b₀.isLt
  have h₁ := b₁.isLt
  have h₂ := b₂.isLt
  rw [BitVec.toNat_append, BitVec.toNat_append, BitVec.toNat_append,
    ← Nat.shiftLeft_add_eq_or_of_lt h₂, ← Nat.shiftLeft_add_eq_or_of_lt h₁,
    ← Nat.shiftLeft_add_eq_or_of_lt h₀]
  simp only [Nat.shiftLeft_eq]
  omega

lemma toNat_word (m : Addr → Byte) {a : Addr} (ha : a.toNat + 4 ≤ 2 ^ 32) :
    (word m a).toNat = Paging.load32 (image m) a.toNat := by
  have h₁ := toNat_add_of_le (a := a) (j := 1) (by omega)
  have h₂ := toNat_add_of_le (a := a) (j := 2) (by omega)
  have h₃ := toNat_add_of_le (a := a) (j := 3) (by omega)
  rw [word, toNat_append_bytes, Paging.load32, ← h₁, ← h₂, ← h₃]
  simp only [image_toNat]
  rfl

section Image

variable {f : DCache → Addr → Byte} (hf : Caches.Observer l1Line l2Line f) (c : DCache)

include hf

lemma image_store (a : Addr) (v : Byte) :
    image (f (c.store l2Line a v)) = Function.update (image (f c)) a.toNat v := by
  funext x
  rw [Function.update_apply, image, image]
  by_cases hx : x < 2 ^ 32
  · have hiff : BitVec.ofNat 32 x = a ↔ x = a.toNat := by
      rw [← BitVec.toNat_inj, BitVec.toNat_ofNat, Nat.mod_eq_of_lt hx]
    simp only [if_pos hx, hf.store, hiff]
  · have hne : x ≠ a.toNat := fun h => hx (h ▸ a.isLt)
    rw [if_neg hx, if_neg hx, if_neg hne]

lemma image_storeWord {a : Addr} (ha : a.toNat + 4 ≤ 2 ^ 32) (w : BitVec 32) :
    image (f (storeWord c a w)) = Paging.store32 (image (f c)) a.toNat w := by
  have h₁ : (a + 1).toNat = a.toNat + 1 := toNat_add_of_le (j := 1) (by omega)
  have h₂ : (a + 2).toNat = a.toNat + 2 := toNat_add_of_le (j := 2) (by omega)
  have h₃ : (a + 3).toNat = a.toNat + 3 := toNat_add_of_le (j := 3) (by omega)
  rw [storeWord, image_store hf, image_store hf, image_store hf, image_store hf]
  funext x
  rw [Paging.store32]
  simp only [Function.update_apply, h₁, h₂, h₃]
  split_ifs <;> first | rfl | omega

lemma observe_loadWord (a : Addr) : f (loadWord c a).2 = f c := by
  rw [loadWord, hf.load, hf.load, hf.load, hf.load]

/-- An assignment to a bit field stores the word with the field replaced. -/
lemma image_modifyWord {a : Addr} (ha : a.toNat + 4 ≤ 2 ^ 32) (g : BitVec 32 → BitVec 32) :
    image (f (modifyWord c a g)) =
      Paging.store32 (image (f c)) a.toNat (g (word (c.view l1Line l2Line) a)) := by
  rw [modifyWord, image_storeWord hf _ ha, observe_loadWord hf]
  rfl

lemma image_memset {s : Addr} (v : Byte) {n : ℕ} (h : s.toNat + n ≤ 2 ^ 32) (x : ℕ) :
    image (f (memset c s v n)) x =
      if s.toNat ≤ x ∧ x < s.toNat + n then v else image (f c) x := by
  induction n generalizing c s with
  | zero => rw [memset, if_neg (by omega)]
  | succ n ih =>
    rcases Nat.eq_zero_or_pos n with rfl | hn
    · rw [memset, memset, image_store hf, Function.update_apply]
      exact if_congr (by omega) rfl rfl
    · have hs : (s + 1).toNat = s.toNat + 1 := toNat_add_of_le (j := 1) (by omega)
      rw [memset, ih _ (by omega), image_store hf, Function.update_apply, hs]
      split_ifs <;> first | rfl | omega

end Image

/-- The processor sees the word that it has assigned to. -/
lemma word_modifyWord (c : DCache) {a : Addr} (ha : a.toNat + 4 ≤ 2 ^ 32)
    (g : BitVec 32 → BitVec 32) : word ((modifyWord c a g).view l1Line l2Line) a =
      g (word (c.view l1Line l2Line) a) := by
  apply BitVec.eq_of_toNat_eq
  rw [toNat_word _ ha, image_modifyWord Caches.observer_view _ ha, Paging.load32_store32]

/-! ### What the stores leave -/

/-- A property of the caches that loads and stores leave. -/
structure Stable (P : DCache → Prop) : Prop where
  load : ∀ c a, P c → P (c.load l1Line l2Line a)
  store : ∀ c a v, P c → P (c.store l2Line a v)

namespace Stable

lemma pending (k : ℕ) : Stable (Caches.Pending · k) :=
  ⟨fun _ a h => Caches.pending_load h a, fun _ a v h => Caches.pending_store h a v⟩

lemma mem (m : Addr → Byte) : Stable (Caches.mem · = m) :=
  ⟨fun _ a h => (Caches.mem_load a).trans h, fun _ a v h => (Caches.mem_store a v).trans h⟩

variable {P : DCache → Prop} (hP : Stable P) {c : DCache}

include hP

lemma memset (v : Byte) (n : ℕ) (s : Addr) (h : P c) : P (memset c s v n) := by
  induction n generalizing c s with
  | zero => exact h
  | succ n ih => exact ih _ (hP.store _ _ _ h)

lemma storeWord (a : Addr) (w : BitVec 32) (h : P c) : P (storeWord c a w) :=
  hP.store _ _ _ (hP.store _ _ _ (hP.store _ _ _ (hP.store _ _ _ h)))

lemma modifyWord (a : Addr) (g : BitVec 32 → BitVec 32) (h : P c) : P (modifyWord c a g) :=
  hP.storeWord _ _ (hP.load _ _ (hP.load _ _ (hP.load _ _ (hP.load _ _ h))))

end Stable

/-- Cleared memory is pending. -/
lemma pending_memset {c : DCache} {s a : Addr} {v : Byte} {n : ℕ} (h : s.toNat + n ≤ 2 ^ 32)
    (ha : s.toNat ≤ a.toNat) (ha' : a.toNat < s.toNat + n) :
    (memset c s v n).Pending (l2Line a) := by
  induction n generalizing c s with
  | zero => omega
  | succ n ih =>
    rw [memset]
    rcases Nat.eq_or_lt_of_le ha with heq | hlt
    · obtain rfl := BitVec.eq_of_toNat_eq heq
      exact (Stable.pending _).memset _ _ _ (Caches.pending_store_self _ _)
    · have hs : (s + 1).toNat = s.toNat + 1 := toNat_add_of_le (j := 1) (by omega)
      exact ih (by omega) (by omega) (by omega)

/-! ### Addresses in a range -/

lemma ne_zero_of_toNat {a : Addr} (h : 0 < a.toNat) : a ≠ 0 := by
  rintro rfl
  exact absurd h (Nat.lt_irrefl 0)

/-- A byte of a range is in a line of the range. -/
lemma toNat_div_mem_linesOf {size : ℕ} {mem len a : Addr} (hlen : len ≠ 0)
    (ha : mem.toNat ≤ a.toNat) (ha' : a.toNat < mem.toNat + len.toNat) :
    a.toNat / size ∈ linesOf size mem len :=
  (mem_linesOf hlen).2 ⟨Nat.div_le_div_right ha, Nat.div_le_div_right (by omega)⟩

end EvtDrivenOs.Xcache
