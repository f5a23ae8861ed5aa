/-
Physical memory of bytes, and the translation of addresses by page tables of 512 entries.

A table of level `l + 1` has an entry for each `2 ^ (12 + 9 * l)` bytes of the virtual
address space.  An entry refers to a table of the level below, or it maps a page; the
processor has four levels, and entries of level 2 and 3 may map large pages.
-/
import Mathlib.Data.BitVec
import Mathlib.Tactic.Ring

namespace EvtDrivenOs.Lib.Paging

/-! ### Memory -/

/-- A memory, by byte. -/
abbrev Mem := ℕ → BitVec 8

/-- A double word is stored, the lowest byte first. -/
def store32 (m : Mem) (a : ℕ) (v : BitVec 32) : Mem := fun x =>
  if x = a then v.extractLsb' 0 8
  else if x = a + 1 then v.extractLsb' 8 8
  else if x = a + 2 then v.extractLsb' 16 8
  else if x = a + 3 then v.extractLsb' 24 8
  else m x

/-- Four bytes, the lowest first. -/
def load32 (m : Mem) (a : ℕ) : ℕ :=
  (m a).toNat + (m (a + 1)).toNat * 2 ^ 8 + (m (a + 2)).toNat * 2 ^ 16 + (m (a + 3)).toNat * 2 ^ 24

/-- A quad word is loaded, the lowest double word first. -/
def load64 (m : Mem) (a : ℕ) : ℕ := load32 m a + load32 m (a + 4) * 2 ^ 32

lemma store32_of_notMem {m : Mem} {a x : ℕ} {v : BitVec 32} (h : x < a ∨ a + 4 ≤ x) :
    store32 m a v x = m x := by
  rw [store32, if_neg (by omega), if_neg (by omega), if_neg (by omega), if_neg (by omega)]

lemma load32_store32 (m : Mem) (a : ℕ) (v : BitVec 32) : load32 (store32 m a v) a = v.toNat := by
  have hv := v.isLt
  simp [load32, store32, BitVec.extractLsb'_toNat, Nat.shiftRight_eq_div_pow]
  omega

lemma load32_congr {m m' : Mem} {a : ℕ} (h : ∀ x, a ≤ x → x < a + 4 → m' x = m x) :
    load32 m' a = load32 m a := by
  rw [load32, load32, h a (by omega) (by omega), h (a + 1) (by omega) (by omega),
    h (a + 2) (by omega) (by omega), h (a + 3) (by omega) (by omega)]

/-- A store changes a byte or does not look at it. -/
lemma store32_congr {m m' : Mem} {x : ℕ} (h : m x = m' x) (a : ℕ) (v : BitVec 32) :
    store32 m a v x = store32 m' a v x := by
  simp only [store32, h]

lemma store32_store32 (m : Mem) (a : ℕ) (v w : BitVec 32) :
    store32 (store32 m a v) a w = store32 m a w := by
  funext x
  rcases Nat.lt_or_ge x a with hlt | hle
  · rw [store32_of_notMem (.inl hlt), store32_of_notMem (.inl hlt), store32_of_notMem (.inl hlt)]
  · rcases Nat.lt_or_ge x (a + 4) with hlt | hge
    · obtain rfl | rfl | rfl | rfl : x = a ∨ x = a + 1 ∨ x = a + 2 ∨ x = a + 3 := by omega
      all_goals simp [store32]
    · rw [store32_of_notMem (.inr hge), store32_of_notMem (.inr hge), store32_of_notMem (.inr hge)]

lemma load32_store32_of_disjoint {m : Mem} {a b : ℕ} {v : BitVec 32} (h : b + 4 ≤ a ∨ a + 4 ≤ b) :
    load32 (store32 m a v) b = load32 m b :=
  load32_congr fun x hx hx' => store32_of_notMem (by omega)

lemma load64_congr {m m' : Mem} {a : ℕ} (h : ∀ x, a ≤ x → x < a + 8 → m' x = m x) :
    load64 m' a = load64 m a := by
  rw [load64, load64, load32_congr fun x hx hx' => h x hx (by omega),
    load32_congr fun x hx hx' => h x (by omega) (by omega)]

lemma load32_of_zero {m : Mem} {a : ℕ} (h : ∀ x, a ≤ x → x < a + 4 → m x = 0) : load32 m a = 0 := by
  rw [load32, h a (by omega) (by omega), h (a + 1) (by omega) (by omega),
    h (a + 2) (by omega) (by omega), h (a + 3) (by omega) (by omega)]
  rfl

lemma load64_of_zero {m : Mem} {a : ℕ} (h : ∀ x, a ≤ x → x < a + 8 → m x = 0) : load64 m a = 0 := by
  rw [load64, load32_of_zero fun x hx hx' => h x hx (by omega),
    load32_of_zero fun x hx hx' => h x (by omega) (by omega), Nat.zero_mul]

/-- A doubleword stored where the upper half was zero is the whole entry. -/
lemma load64_store32 {m : Mem} {a : ℕ} (h : ∀ x, a + 4 ≤ x → x < a + 8 → m x = 0) (v : BitVec 32) :
    load64 (store32 m a v) a = v.toNat := by
  have hupper : load32 (store32 m a v) (a + 4) = 0 := by
    apply load32_of_zero
    intro x hx hx'
    rw [store32_of_notMem (by omega), h x hx (by omega)]
  rw [load64, load32_store32, hupper]
  omega

/-- The first `n` entries of the table at `a` get doublewords in their lower halves. -/
def fill (m : Mem) (a : ℕ) (f : ℕ → BitVec 32) : ℕ → Mem
  | 0 => m
  | n + 1 => store32 (fill m a f n) (a + 8 * n) (f n)

lemma fill_of_notMem {m : Mem} {a n x : ℕ} {f : ℕ → BitVec 32} (h : x < a ∨ a + 8 * n ≤ x) :
    fill m a f n x = m x := by
  induction n with
  | zero => rfl
  | succ n ih => rw [fill, store32_of_notMem (by omega), ih (by omega)]

lemma load64_fill {m : Mem} {a n i : ℕ} (f : ℕ → BitVec 32) (hi : i < n)
    (h : ∀ x, a ≤ x → x < a + 8 * n → m x = 0) :
    load64 (fill m a f n) (a + 8 * i) = (f i).toNat := by
  induction n with
  | zero => exact absurd hi (Nat.not_lt_zero i)
  | succ n ih =>
    rw [fill]
    rcases Nat.lt_succ_iff_lt_or_eq.mp hi with hi | rfl
    · rw [← ih hi fun x hx hx' => h x hx (by omega)]
      apply load64_congr
      intro x hx hx'
      exact store32_of_notMem (by omega)
    · apply load64_store32
      intro x hx hx'
      rw [fill_of_notMem (by omega), h x (by omega) (by omega)]

/-! ### Entries -/

/-- The entry is in use. -/
def present (e : ℕ) : Bool := e % 2 = 1

/-- The bit that turns the cache off. -/
def cacheDisabled (e : ℕ) : Bool := e / 2 ^ 4 % 2 = 1

/-- The bit for a large page, in an entry of level 2 or 3. -/
def largePage (e : ℕ) : Bool := e / 2 ^ 7 % 2 = 1

/-- The address in an entry of level `l + 1` that maps a page; bits 51 and lower. -/
def frame (l e : ℕ) : ℕ := e / 2 ^ (12 + 9 * l) % 2 ^ (40 - 9 * l) * 2 ^ (12 + 9 * l)

/-- The entry that translates `v`, in a table of level `l + 1`. -/
def index (l v : ℕ) : ℕ := v / 2 ^ (12 + 9 * l) % 512

/-- What a processor takes for reserved bits.  Their number depends on the width of its
physical addresses, which is more than 32. -/
structure Processor where
  /-- An entry of a level has a reserved bit set. -/
  reserved : ℕ → ℕ → Bool
  table_ok : ∀ l e, e < 2 ^ 32 → largePage e = false → reserved l e = false
  /-- In an entry for a large page the bits below its address are reserved, but for the
  lowest 13. -/
  large_ok : ∀ e < 2 ^ 32, e / 2 ^ 13 % 2 ^ 8 = 0 → reserved 2 e = false
  page_ok : ∀ e < 2 ^ 32, reserved 1 e = false

/-- What an address is taken to. -/
structure Mapping where
  phys : ℕ
  uncached : Bool
deriving DecidableEq, Repr

variable (cpu : Processor) (m : Mem)

/-- The entry is used: it is present and has no reserved bit set. -/
def Processor.valid (l e : ℕ) : Bool := present e && !cpu.reserved l e

/-- The translation of `v` by the table at `a`, which has level `l`; `none` is a fault. -/
def walk : ℕ → ℕ → ℕ → Option Mapping
  | 0, _, _ => none
  | l + 1, a, v =>
    let e := load64 m (a + 8 * index l v)
    if !cpu.valid (l + 1) e then none
    else if l = 0 ∨ l ≤ 2 ∧ largePage e then
      some ⟨frame l e + v % 2 ^ (12 + 9 * l), cacheDisabled e⟩
    else walk l (frame 0 e) v

variable {cpu m} {l a v e : ℕ}

lemma walk_of_not_valid (he : load64 m (a + 8 * index l v) = e) (hv : cpu.valid (l + 1) e = false) :
    walk cpu m (l + 1) a v = none := by
  simp only [walk, he, hv, Bool.not_false, if_true]

/-- An entry for a table. -/
lemma walk_of_table (he : load64 m (a + 8 * index (l + 1) v) = e)
    (hv : cpu.valid (l + 2) e = true) (hl : largePage e = false) :
    walk cpu m (l + 2) a v = walk cpu m (l + 1) (frame 0 e) v := by
  rw [walk]
  simp only [he, hv, hl]
  simp

/-- An entry for a large page. -/
lemma walk_of_large (he : load64 m (a + 8 * index 1 v) = e) (hv : cpu.valid 2 e = true)
    (hl : largePage e = true) :
    walk cpu m 2 a v = some ⟨frame 1 e + v % 2 ^ 21, cacheDisabled e⟩ := by
  rw [walk]
  simp only [he, hv, hl]
  simp

/-- An entry for a page. -/
lemma walk_of_page (he : load64 m (a + 8 * index 0 v) = e) (hv : cpu.valid 1 e = true) :
    walk cpu m 1 a v = some ⟨frame 0 e + v % 2 ^ 12, cacheDisabled e⟩ := by
  rw [walk]
  simp only [he, hv]
  simp

/-- A table of level 2 maps nothing at `v`. -/
lemma walk_eq_none_iff (he : load64 m (a + 8 * index 1 v) = e) :
    walk cpu m 2 a v = none ↔ cpu.valid 2 e = false ∨
      largePage e = false ∧ cpu.valid 1 (load64 m (frame 0 e + 8 * index 0 v)) = false := by
  by_cases hv : cpu.valid 2 e = true
  · by_cases hl : largePage e = true
    · rw [walk_of_large he hv hl, hv, hl]
      simp
    · rw [Bool.not_eq_true] at hl
      rw [walk_of_table he hv hl, hv, hl]
      by_cases hp : cpu.valid 1 (load64 m (frame 0 e + 8 * index 0 v)) = true
      · rw [walk_of_page rfl hp, hp]
        simp
      · rw [Bool.not_eq_true] at hp
        rw [walk_of_not_valid rfl hp, hp]
        simp
  · rw [Bool.not_eq_true] at hv
    rw [walk_of_not_valid he hv, hv]
    simp

/-- The addresses that are translated: bit 47 is repeated above it. -/
def Canonical (v : ℕ) : Prop := v < 2 ^ 47 ∨ 2 ^ 64 - 2 ^ 47 ≤ v ∧ v < 2 ^ 64

lemma index_lt (l v : ℕ) : index l v < 512 := Nat.mod_lt _ (by decide)

lemma frame_zero_mod (e : ℕ) : frame 0 e % 4096 = 0 := Nat.mul_mod_left _ 4096

/-! ### Addresses and flags -/

/-- An address that is a multiple of `2 ^ k`, with flags in the bits below. -/
lemma or_flags {a f k : ℕ} (ha : a % 2 ^ k = 0) (hf : f < 2 ^ k) : a ||| f = a + f := by
  obtain ⟨q, rfl⟩ := Nat.dvd_of_mod_eq_zero ha
  exact (Nat.two_pow_add_eq_or_of_lt hf q).symm

/-- An entry for a table that is present and writable. -/
lemma valid_table {l a : ℕ} (cpu : Processor) (ha : a % 4096 = 0) (hlt : a + 0b11 < 2 ^ 32) :
    cpu.valid l (a + 0b11) = true ∧ largePage (a + 0b11) = false ∧ frame 0 (a + 0b11) = a := by
  have hlarge : largePage (a + 0b11) = false := by
    rw [largePage, decide_eq_false_iff_not]
    omega
  refine ⟨?_, hlarge, ?_⟩
  · rw [Processor.valid, cpu.table_ok l _ hlt hlarge, present, Bool.not_false, Bool.and_true,
      decide_eq_true_iff]
    omega
  · simp only [frame, Nat.mul_zero, Nat.add_zero, Nat.sub_zero]
    omega

/-- An entry for a large page. -/
lemma valid_large {a f : ℕ} (cpu : Processor) (ha : a % 2 ^ 21 = 0) (hf : f < 2 ^ 13)
    (hlt : a + f < 2 ^ 32) (hp : present f = true) (hl : largePage f = true) :
    cpu.valid 2 (a + f) = true ∧ largePage (a + f) = true ∧ frame 1 (a + f) = a ∧
      cacheDisabled (a + f) = cacheDisabled f := by
  rw [present, decide_eq_true_iff] at hp
  rw [largePage, decide_eq_true_iff] at hl
  refine ⟨?_, ?_, ?_, ?_⟩
  · rw [Processor.valid, cpu.large_ok _ hlt (by omega), present, Bool.not_false, Bool.and_true,
      decide_eq_true_iff]
    omega
  · rw [largePage, decide_eq_true_iff]
    omega
  · simp only [frame, Nat.mul_one, Nat.reduceAdd, Nat.reduceSub]
    omega
  · rw [cacheDisabled, cacheDisabled, decide_eq_decide]
    omega

end EvtDrivenOs.Lib.Paging
