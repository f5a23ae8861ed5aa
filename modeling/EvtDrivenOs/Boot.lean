/-
The page tables that `main32.asm` sets up before it turns paging on.

The first gigabyte is mapped to itself, and four megabytes behind it to the registers of
the interrupt controllers.  Of the table for these only the two entries that are written
have been reserved; the processor reads 510 more, from whatever follows in memory.
-/
import EvtDrivenOs.Lib.Paging

namespace EvtDrivenOs.Boot

open EvtDrivenOs.Lib.Paging

/-! ### The code -/

/-- The registers that the setup uses, in 32-bit mode, and the memory. -/
structure Machine32 where
  eax : BitVec 32
  ecx : BitVec 32
  edx : BitVec 32
  edi : BitVec 32
  mem : Mem

/-- `mul ecx` -/
def Machine32.mulEcx (s : Machine32) : Machine32 :=
  let p : BitVec 64 := s.eax.setWidth 64 * s.ecx.setWidth 64
  { s with eax := p.setWidth 32, edx := p.extractLsb' 32 32 }

/-- `mov [a], eax` -/
def Machine32.store (s : Machine32) (a : BitVec 32) : Machine32 :=
  { s with mem := store32 s.mem a.toNat s.eax }

/-- Where the linker puts the tables of `page_tables.asm`: one after the other, on a page
boundary. -/
structure PageTables where
  l4 : ℕ
  aligned : l4 % 4096 = 0
  fits : l4 + 3 * 4096 + 16 ≤ 2 ^ 32

namespace PageTables

variable (pt : PageTables)

/-- The table of the third level, behind that of the fourth. -/
def l3 : ℕ := pt.l4 + 4096

/-- The table of the second level for the memory. -/
def l2 : ℕ := pt.l4 + 2 * 4096

/-- The table of the second level for the devices. -/
def mmio : ℕ := pt.l4 + 3 * 4096

/-- The pages of the tables. -/
def pages : List ℕ := [pt.l4, pt.l3, pt.l2, pt.mmio]

end PageTables

/-- The two loops, which differ in the entry that they store and in the number of entries. -/
def mapLoop (entry : Machine32 → Machine32) (count : BitVec 32) : ℕ → Machine32 → Option Machine32
  | 0, _ => none
  | fuel + 1, s =>
    let s := entry s
    let s := s.store (s.edi + s.ecx * 8)
    let s := { s with ecx := s.ecx + 1 }
    if s.ecx ≠ count then mapLoop entry count fuel s else some s

/-- The entry of `.map_gmem_loop`: present, writable, a large page. -/
def gmemEntry (s : Machine32) : Machine32 :=
  let s := { s with eax := 0x200000 }
  let s := s.mulEcx
  { s with eax := s.eax ||| 0b10000011 }

/-- The loop for the memory, of 512 entries. -/
def mapGmemLoop : ℕ → Machine32 → Option Machine32 := mapLoop gmemEntry 512

/-- The entry of `.map_mmio_loop`: also not cached. -/
def mmioEntry (s : Machine32) : Machine32 :=
  let s := { s with eax := 0x200000 }
  let s := s.mulEcx
  let s := { s with eax := s.eax + 0xFEC00000 }
  { s with eax := s.eax ||| 0b10010011 }

/-- The loop for the devices, of two entries. -/
def mapMmioLoop : ℕ → Machine32 → Option Machine32 := mapLoop mmioEntry 2

/-- `setup_page_tables` -/
def setupPageTables (pt : PageTables) (fuel : ℕ) (s : Machine32) : Option Machine32 := do
  let s := { s with eax := BitVec.ofNat 32 pt.l3 }
  let s := { s with eax := s.eax ||| 0b11 } -- present and writable
  let s := s.store (BitVec.ofNat 32 pt.l4)
  let s := { s with eax := BitVec.ofNat 32 pt.l2 }
  let s := { s with eax := s.eax ||| 0b11 }
  let s := s.store (BitVec.ofNat 32 pt.l3)
  let s := { s with ecx := 0 }
  let s := { s with edi := BitVec.ofNat 32 pt.l2 }
  let s ← mapGmemLoop fuel s
  let s := { s with edi := BitVec.ofNat 32 pt.l3 }
  let s := { s with eax := BitVec.ofNat 32 pt.mmio }
  let s := { s with eax := s.eax ||| 0b11 }
  let s := s.store (s.edi + 8) -- the second entry
  let s := { s with ecx := 0 }
  let s := { s with edi := BitVec.ofNat 32 pt.mmio }
  mapMmioLoop fuel s

/-! ### The loops -/

/-- `entry` loads `f k` into `eax`, where `k` is the count in `ecx`. -/
def Loads (entry : Machine32 → Machine32) (f : ℕ → BitVec 32) : Prop :=
  ∀ s, ∃ edx, entry s = { s with eax := f s.ecx.toNat, edx := edx }

/-- The lower word of the `k`-th entry of the identity mapping. -/
def gmemWord (k : ℕ) : BitVec 32 := 0x200000 * BitVec.ofNat 32 k ||| 0b10000011

/-- The lower word of the `k`-th entry of the mapping of the registers. -/
def mmioWord (k : ℕ) : BitVec 32 := 0x200000 * BitVec.ofNat 32 k + 0xFEC00000 ||| 0b10010011

lemma mulEcx_eax (s : Machine32) : s.mulEcx.eax = s.eax * s.ecx := by
  simp only [Machine32.mulEcx]
  rw [BitVec.setWidth_mul _ _ (by decide), BitVec.setWidth_setWidth_of_le _ (by decide),
    BitVec.setWidth_setWidth_of_le _ (by decide), BitVec.setWidth_eq, BitVec.setWidth_eq]

lemma loads_gmem : Loads gmemEntry gmemWord := by
  intro s
  refine ⟨{ s with eax := 0x200000 }.mulEcx.edx, ?_⟩
  have heax := mulEcx_eax { s with eax := 0x200000 }
  rw [gmemEntry, gmemWord, BitVec.ofNat_toNat, BitVec.setWidth_eq]
  simp only [heax]
  rfl

lemma loads_mmio : Loads mmioEntry mmioWord := by
  intro s
  refine ⟨{ s with eax := 0x200000 }.mulEcx.edx, ?_⟩
  have heax := mulEcx_eax { s with eax := 0x200000 }
  rw [mmioEntry, mmioWord, BitVec.ofNat_toNat, BitVec.setWidth_eq]
  simp only [heax]
  rfl

/-- A loop that has stored `k` entries stores the others and ends. -/
lemma mapLoop_fill {entry : Machine32 → Machine32} {f : ℕ → BitVec 32} (hentry : Loads entry f)
    {base n : ℕ} (hbase : base + 8 * n ≤ 2 ^ 32) {m : Mem} (fuel : ℕ) :
    ∀ {k : ℕ} {s : Machine32}, k < n → n ≤ k + fuel → s.ecx = BitVec.ofNat 32 k →
      s.edi = BitVec.ofNat 32 base → s.mem = fill m base f k →
      ∃ t, mapLoop entry (BitVec.ofNat 32 n) fuel s = some t ∧ t.mem = fill m base f n := by
  induction fuel with
  | zero =>
    intro k s hk hfuel
    omega
  | succ fuel ih =>
    intro k s hk hfuel hecx hedi hmem
    obtain ⟨edx, hs⟩ := hentry s
    have hcount : s.ecx.toNat = k := by
      rw [hecx, BitVec.toNat_ofNat, Nat.mod_eq_of_lt (by omega)]
    have haddr : (s.edi + s.ecx * 8).toNat = base + 8 * k := by
      rw [hedi, hecx, BitVec.toNat_add, BitVec.toNat_mul, BitVec.toNat_ofNat, BitVec.toNat_ofNat,
        show (8 : BitVec 32).toNat = 8 from rfl]
      omega
    have hnext : s.ecx + 1 = BitVec.ofNat 32 (k + 1) := by
      rw [hecx, BitVec.ofNat_add]
      rfl
    have hfill : store32 s.mem (s.edi + s.ecx * 8).toNat (f s.ecx.toNat) =
        fill m base f (k + 1) := by
      rw [haddr, hcount, hmem, fill]
    rw [mapLoop, hs]
    simp only [Machine32.store, hnext, hfill]
    -- the loop ends when the counter, which does not wrap around, has the bound
    by_cases hlast : k + 1 = n
    · rw [hlast, if_neg (not_not.mpr rfl)]
      exact ⟨_, rfl, rfl⟩
    · have hne : BitVec.ofNat 32 (k + 1) ≠ BitVec.ofNat 32 n := by
        intro heq
        have hval := congrArg BitVec.toNat heq
        rw [BitVec.toNat_ofNat, BitVec.toNat_ofNat, Nat.mod_eq_of_lt (by omega),
          Nat.mod_eq_of_lt (by omega)] at hval
        exact hlast hval
      rw [if_pos hne]
      exact ih (by omega) (by omega) rfl hedi rfl

/-- The state in which the first loop starts, and that in which the second one does. -/
def gmemStart (pt : PageTables) (s : Machine32) : Machine32 :=
  { eax := BitVec.ofNat 32 pt.l2 ||| 0b11, ecx := 0, edx := s.edx, edi := BitVec.ofNat 32 pt.l2
    mem := store32 (store32 s.mem (BitVec.ofNat 32 pt.l4).toNat (BitVec.ofNat 32 pt.l3 ||| 0b11))
      (BitVec.ofNat 32 pt.l3).toNat (BitVec.ofNat 32 pt.l2 ||| 0b11) }

/-- In front of the loop for the devices, with the entry of the third level written. -/
def mmioStart (pt : PageTables) (s : Machine32) : Machine32 :=
  { eax := BitVec.ofNat 32 pt.mmio ||| 0b11, ecx := 0, edx := s.edx
    edi := BitVec.ofNat 32 pt.mmio
    mem := store32 s.mem (BitVec.ofNat 32 pt.l3 + 8).toNat (BitVec.ofNat 32 pt.mmio ||| 0b11) }

/-- The setup is the two loops, each from the state that the code before it makes. -/
lemma setupPageTables_bind (pt : PageTables) (fuel : ℕ) (s : Machine32) :
    setupPageTables pt fuel s = (mapGmemLoop fuel (gmemStart pt s)).bind fun t =>
      mapMmioLoop fuel (mmioStart pt t) := by
  -- with the addresses as variables the two sides are compared without computing them
  obtain ⟨l4, hl4⟩ : ∃ l4, BitVec.ofNat 32 pt.l4 = l4 := ⟨_, rfl⟩
  obtain ⟨l3, hl3⟩ : ∃ l3, BitVec.ofNat 32 pt.l3 = l3 := ⟨_, rfl⟩
  obtain ⟨l2, hl2⟩ : ∃ l2, BitVec.ofNat 32 pt.l2 = l2 := ⟨_, rfl⟩
  obtain ⟨mmio, hmmio⟩ : ∃ mmio, BitVec.ofNat 32 pt.mmio = mmio := ⟨_, rfl⟩
  unfold setupPageTables gmemStart mmioStart
  rw [hl4, hl3, hl2, hmmio]
  rfl

/-- The memory after the setup. -/
def tablesSet (pt : PageTables) (m : Mem) : Mem :=
  let m := store32 m pt.l4 (BitVec.ofNat 32 pt.l3 ||| 0b11)
  let m := store32 m pt.l3 (BitVec.ofNat 32 pt.l2 ||| 0b11)
  let m := fill m pt.l2 gmemWord 512
  let m := store32 m (pt.l3 + 8) (BitVec.ofNat 32 pt.mmio ||| 0b11)
  fill m pt.mmio mmioWord 2

/-- The setup ends. -/
lemma setupPageTables_eq (pt : PageTables) (s : Machine32) {fuel : ℕ} (hfuel : 512 ≤ fuel) :
    ∃ t, setupPageTables pt fuel s = some t ∧ t.mem = tablesSet pt s.mem := by
  have hfits := pt.fits
  have hl4 : (BitVec.ofNat 32 pt.l4).toNat = pt.l4 := by
    rw [BitVec.toNat_ofNat, Nat.mod_eq_of_lt (by omega)]
  have hl3 : (BitVec.ofNat 32 pt.l3).toNat = pt.l3 := by
    rw [BitVec.toNat_ofNat, PageTables.l3, Nat.mod_eq_of_lt (by omega)]
  have hl3' : (BitVec.ofNat 32 pt.l3 + 8).toNat = pt.l3 + 8 := by
    rw [BitVec.toNat_add, hl3, show (8 : BitVec 32).toNat = 8 from rfl, PageTables.l3,
      Nat.mod_eq_of_lt (by omega)]
  obtain ⟨t₁, ht₁, hm₁⟩ := mapLoop_fill loads_gmem (show pt.l2 + 8 * 512 ≤ 2 ^ 32 by
    rw [PageTables.l2]; omega) fuel (s := gmemStart pt s) (by decide) (by omega) rfl rfl rfl
  obtain ⟨t₂, ht₂, hm₂⟩ := mapLoop_fill loads_mmio (show pt.mmio + 8 * 2 ≤ 2 ^ 32 by
    rw [PageTables.mmio]; omega) fuel (s := mmioStart pt t₁) (by decide) (by omega) rfl rfl rfl
  refine ⟨t₂, ?_, ?_⟩
  · rw [setupPageTables_bind]
    exact Option.bind_eq_some_iff.mpr ⟨t₁, ht₁, ht₂⟩
  · rw [hm₂, mmioStart, hm₁, gmemStart, hl4, hl3, hl3']
    rfl

/-! ### The tables -/

/-- The bytes that are reserved for the tables are zero. -/
def Zeroed (pt : PageTables) (m : Mem) : Prop := ∀ x, pt.l4 ≤ x → x < pt.mmio + 16 → m x = 0

/-- What the entries are when the setup has started with `m` and left `m'`. -/
structure Tables (pt : PageTables) (m m' : Mem) : Prop where
  l4 : ∀ i < 512, load64 m' (pt.l4 + 8 * i) = if i = 0 then pt.l3 + 0b11 else 0
  l3 : ∀ i < 512, load64 m' (pt.l3 + 8 * i) =
    if i = 0 then pt.l2 + 0b11 else if i = 1 then pt.mmio + 0b11 else 0
  l2 : ∀ i < 512, load64 m' (pt.l2 + 8 * i) = 0x200000 * i + 0b10000011
  mmio : ∀ i < 2, load64 m' (pt.mmio + 8 * i) = 0x200000 * i + 0xFEC00000 + 0b10010011
  other : ∀ x, x < pt.l4 ∨ pt.mmio + 16 ≤ x → m' x = m x

lemma PageTables.l3_mem (pt : PageTables) : pt.l3 ∈ pt.pages := by simp [pages]

lemma PageTables.l2_mem (pt : PageTables) : pt.l2 ∈ pt.pages := by simp [pages]

lemma PageTables.mmio_mem (pt : PageTables) : pt.mmio ∈ pt.pages := by simp [pages]

/-- The tables are on page boundaries, and an entry for one of them has 32 bits. -/
lemma PageTables.of_mem_pages {pt : PageTables} {a : ℕ} (ha : a ∈ pt.pages) :
    a % 4096 = 0 ∧ a + 0b11 < 2 ^ 32 := by
  have hfits := pt.fits
  have haligned := pt.aligned
  simp only [pages, l3, l2, mmio, List.mem_cons, List.not_mem_nil, or_false] at ha
  omega

lemma toNat_tableWord {pt : PageTables} {a : ℕ} (ha : a ∈ pt.pages) :
    (BitVec.ofNat 32 a ||| 0b11).toNat = a + 0b11 := by
  obtain ⟨haligned, hlt⟩ := PageTables.of_mem_pages ha
  rw [BitVec.toNat_or, BitVec.toNat_ofNat, Nat.mod_eq_of_lt (by omega)]
  exact or_flags (k := 12) haligned (by decide)

lemma toNat_gmemWord {k : ℕ} (hk : k < 512) : (gmemWord k).toNat = 0x200000 * k + 0b10000011 := by
  rw [gmemWord, BitVec.toNat_or, BitVec.toNat_mul, BitVec.toNat_ofNat,
    show (0x200000 : BitVec 32).toNat = 0x200000 from rfl,
    Nat.mod_eq_of_lt (show k < 2 ^ 32 by omega),
    Nat.mod_eq_of_lt (show 0x200000 * k < 2 ^ 32 by omega)]
  exact or_flags (k := 21) (by omega) (by decide)

lemma toNat_mmioWord {k : ℕ} (hk : k < 2) :
    (mmioWord k).toNat = 0x200000 * k + 0xFEC00000 + 0b10010011 := by
  rcases Nat.lt_succ_iff_lt_or_eq.mp hk with hk | rfl
  · rw [Nat.lt_one_iff.mp hk]
    decide
  · decide

/-- A byte that is in none of the doublewords that are stored. -/
lemma tablesSet_of_notMem {pt : PageTables} {m : Mem} {x : ℕ} (h4 : x < pt.l4 ∨ pt.l4 + 4 ≤ x)
    (h3 : x < pt.l3 ∨ pt.l3 + 4 ≤ x) (h3' : x < pt.l3 + 8 ∨ pt.l3 + 8 + 4 ≤ x)
    (h2 : x < pt.l2 ∨ pt.l2 + 8 * 512 ≤ x) (h1 : x < pt.mmio ∨ pt.mmio + 8 * 2 ≤ x) :
    tablesSet pt m x = m x := by
  rw [tablesSet, fill_of_notMem h1, store32_of_notMem h3', fill_of_notMem h2, store32_of_notMem h3,
    store32_of_notMem h4]

section Entries

variable {pt : PageTables} {m : Mem}

lemma tablesSet_l4 (hm : Zeroed pt m) : load64 (tablesSet pt m) pt.l4 = pt.l3 + 0b11 := by
  simp only [Zeroed, PageTables.mmio] at hm
  rw [← toNat_tableWord pt.l3_mem,
    ← load64_store32 (m := m) (a := pt.l4) fun x hx hx' => hm x (by omega) (by omega)]
  apply load64_congr
  intro x hx hx'
  simp only [tablesSet, PageTables.l3, PageTables.l2, PageTables.mmio]
  rw [fill_of_notMem (by omega), store32_of_notMem (by omega), fill_of_notMem (by omega),
    store32_of_notMem (by omega)]

lemma tablesSet_l3 (hm : Zeroed pt m) : load64 (tablesSet pt m) pt.l3 = pt.l2 + 0b11 := by
  simp only [Zeroed, PageTables.mmio] at hm
  rw [← toNat_tableWord pt.l2_mem,
    ← load64_store32 (m := store32 m pt.l4 (BitVec.ofNat 32 pt.l3 ||| 0b11)) (a := pt.l3)]
  · apply load64_congr
    intro x hx hx'
    simp only [tablesSet, PageTables.l3, PageTables.l2, PageTables.mmio] at hx hx' ⊢
    rw [fill_of_notMem (by omega), store32_of_notMem (by omega), fill_of_notMem (by omega)]
  · intro x hx hx'
    simp only [PageTables.l3] at hx hx'
    rw [store32_of_notMem (by omega), hm x (by omega) (by omega)]

/-- The second entry is stored after the first loop. -/
lemma tablesSet_l3_second (hm : Zeroed pt m) :
    load64 (tablesSet pt m) (pt.l3 + 8) = pt.mmio + 0b11 := by
  simp only [Zeroed, PageTables.mmio] at hm
  rw [← toNat_tableWord pt.mmio_mem, tablesSet]
  rw [load64_congr fun x hx hx' => fill_of_notMem ?_, load64_store32]
  · intro x hx hx'
    simp only [PageTables.l3, PageTables.l2] at hx hx' ⊢
    rw [fill_of_notMem (by omega), store32_of_notMem (by omega), store32_of_notMem (by omega),
      hm x (by omega) (by omega)]
  · simp only [PageTables.l3, PageTables.mmio] at hx hx' ⊢
    omega

lemma tablesSet_l2 (hm : Zeroed pt m) {i : ℕ} (hi : i < 512) :
    load64 (tablesSet pt m) (pt.l2 + 8 * i) = 0x200000 * i + 0b10000011 := by
  simp only [Zeroed, PageTables.mmio] at hm
  rw [← toNat_gmemWord hi, ← load64_fill (a := pt.l2) (m := store32 (store32 m pt.l4
    (BitVec.ofNat 32 pt.l3 ||| 0b11)) pt.l3 (BitVec.ofNat 32 pt.l2 ||| 0b11)) gmemWord hi]
  · apply load64_congr
    intro x hx hx'
    simp only [tablesSet, PageTables.l3, PageTables.l2, PageTables.mmio] at hx hx' ⊢
    rw [fill_of_notMem (by omega), store32_of_notMem (by omega)]
  · intro x hx hx'
    simp only [PageTables.l3, PageTables.l2] at hx hx' ⊢
    rw [store32_of_notMem (by omega), store32_of_notMem (by omega), hm x (by omega) (by omega)]

lemma tablesSet_mmio (hm : Zeroed pt m) {i : ℕ} (hi : i < 2) :
    load64 (tablesSet pt m) (pt.mmio + 8 * i) = 0x200000 * i + 0xFEC00000 + 0b10010011 := by
  simp only [Zeroed, PageTables.mmio] at hm
  rw [← toNat_mmioWord hi]
  apply load64_fill mmioWord hi
  intro x hx hx'
  simp only [PageTables.l3, PageTables.l2, PageTables.mmio] at hx hx' ⊢
  rw [store32_of_notMem (by omega), fill_of_notMem (by omega), store32_of_notMem (by omega),
    store32_of_notMem (by omega), hm x (by omega) (by omega)]

/-- The entries of the two upper tables that are not stored. -/
lemma tablesSet_rest (hm : Zeroed pt m) {i a : ℕ} (hi : i < 512)
    (ha : a = pt.l4 ∧ i ≠ 0 ∨ a = pt.l3 ∧ i ≠ 0 ∧ i ≠ 1) :
    load64 (tablesSet pt m) (a + 8 * i) = 0 := by
  apply load64_of_zero
  intro x hx hx'
  have hzero : m x = 0 := by
    simp only [Zeroed, PageTables.l3, PageTables.mmio] at hm ha
    exact hm x (by omega) (by omega)
  rw [← hzero]
  apply tablesSet_of_notMem <;>
    simp only [PageTables.l3, PageTables.l2, PageTables.mmio] at ha ⊢ <;> omega

lemma tables_tablesSet (hm : Zeroed pt m) : Tables pt m (tablesSet pt m) where
  l4 i hi := by
    split
    · next hzero => rw [hzero, Nat.mul_zero, Nat.add_zero, tablesSet_l4 hm]
    · next hne => exact tablesSet_rest hm hi (.inl ⟨rfl, hne⟩)
  l3 i hi := by
    split
    · next hzero => rw [hzero, Nat.mul_zero, Nat.add_zero, tablesSet_l3 hm]
    · next hne =>
      split
      · next hone => rw [hone, Nat.mul_one, tablesSet_l3_second hm]
      · next hne' => exact tablesSet_rest hm hi (.inr ⟨rfl, hne, hne'⟩)
  l2 i hi := tablesSet_l2 hm hi
  mmio i hi := tablesSet_mmio hm hi
  other x hx := by
    apply tablesSet_of_notMem <;>
      simp only [PageTables.l3, PageTables.l2, PageTables.mmio] at * <;> omega

end Entries

/-! ### The walk -/

/-- What `main32.asm` says about the mapping. -/
def mapped (v : ℕ) : Option Mapping :=
  if v < 0x40000000 then some ⟨v, false⟩
  else if v < 0x40400000 then some ⟨v + 0xBEC00000, true⟩
  else none

/-- Entry `k` of the table for the registers maps nothing, going by the memory before the
setup.  The tables themselves must not be where it leads: the setup puts entries in them. -/
def LeadsNowhere (cpu : Processor) (pt : PageTables) (m : Mem) (k : ℕ) : Prop :=
  let e := load64 m (pt.mmio + 8 * k)
  cpu.valid 2 e = false ∨ largePage e = false ∧ frame 0 e ∉ pt.pages ∧
    ∀ j < 512, cpu.valid 1 (load64 m (frame 0 e + 8 * j)) = false

section Walk

variable {pt : PageTables} {m m' : Mem} {v : ℕ} (cpu : Processor)

lemma zero_not_valid (l : ℕ) : cpu.valid l 0 = false := rfl

/-- An entry for one of the tables leads to it. -/
lemma walk_page {l a t : ℕ} (he : load64 m' (a + 8 * index (l + 1) v) = t + 0b11)
    (ht : t ∈ pt.pages) : walk cpu m' (l + 2) a v = walk cpu m' (l + 1) t v := by
  obtain ⟨haligned, hlt⟩ := PageTables.of_mem_pages ht
  obtain ⟨hv, hl, hf⟩ := valid_table (l := l + 2) cpu haligned hlt
  rw [walk_of_table he hv hl, hf]

lemma walk_l4 (ht : Tables pt m m') (h4 : index 3 v = 0) :
    walk cpu m' 4 pt.l4 v = walk cpu m' 3 pt.l3 v :=
  walk_page cpu (by rw [ht.l4 _ (index_lt 3 v), if_pos h4]) pt.l3_mem

lemma walk_l4_rest (ht : Tables pt m m') (h4 : index 3 v ≠ 0) : walk cpu m' 4 pt.l4 v = none :=
  walk_of_not_valid (by rw [ht.l4 _ (index_lt 3 v), if_neg h4]) (zero_not_valid cpu 4)

lemma walk_l3 (ht : Tables pt m m') (h3 : index 2 v = 0) :
    walk cpu m' 3 pt.l3 v = walk cpu m' 2 pt.l2 v :=
  walk_page cpu (by rw [ht.l3 _ (index_lt 2 v), if_pos h3]) pt.l2_mem

lemma walk_l3_second (ht : Tables pt m m') (h3 : index 2 v = 1) :
    walk cpu m' 3 pt.l3 v = walk cpu m' 2 pt.mmio v :=
  walk_page cpu (by rw [ht.l3 _ (index_lt 2 v), if_neg (by omega), if_pos h3]) pt.mmio_mem

lemma walk_l3_rest (ht : Tables pt m m') (h3 : 2 ≤ index 2 v) :
    walk cpu m' 3 pt.l3 v = none :=
  walk_of_not_valid (by rw [ht.l3 _ (index_lt 2 v), if_neg (by omega), if_neg (by omega)])
    (zero_not_valid cpu 3)

lemma walk_l2 (ht : Tables pt m m') :
    walk cpu m' 2 pt.l2 v = some ⟨0x200000 * index 1 v + v % 2 ^ 21, false⟩ := by
  have hlt := index_lt 1 v
  obtain ⟨hv, hl, hf, hc⟩ := valid_large (a := 0x200000 * index 1 v) (f := 0b10000011) cpu
    (by omega) (by decide) (by omega) rfl rfl
  rw [walk_of_large (ht.l2 _ hlt) hv hl, hf, hc]
  rfl

lemma walk_mmio (ht : Tables pt m m') (h1 : index 1 v < 2) :
    walk cpu m' 2 pt.mmio v = some ⟨0x200000 * index 1 v + 0xFEC00000 + v % 2 ^ 21, true⟩ := by
  obtain ⟨hv, hl, hf, hc⟩ := valid_large (a := 0x200000 * index 1 v + 0xFEC00000)
    (f := 0b10010011) cpu (by omega) (by decide) (by omega) rfl rfl
  rw [walk_of_large (ht.mmio _ h1) hv hl, hf, hc]
  rfl

/-- Every table starts with an entry that the processor would take for that of a page. -/
lemma valid_pages (ht : Tables pt m m') {a : ℕ} (ha : a ∈ pt.pages) :
    cpu.valid 1 (load64 m' a) = true := by
  have htable : ∀ t ∈ pt.pages, cpu.valid 1 (t + 0b11) = true := by
    intro t hin
    obtain ⟨haligned, hlt⟩ := PageTables.of_mem_pages hin
    exact (valid_table cpu haligned hlt).1
  have hlarge : ∀ e < 2 ^ 32, present e = true → cpu.valid 1 e = true := by
    intro e hlt hp
    rw [Processor.valid, hp, cpu.page_ok e hlt]
    rfl
  have h4 := ht.l4 0 (by decide)
  have h3 := ht.l3 0 (by decide)
  have h2 := ht.l2 0 (by decide)
  have h1 := ht.mmio 0 (by decide)
  rw [Nat.mul_zero, Nat.add_zero] at h4 h3 h2 h1
  simp only [PageTables.pages, List.mem_cons, List.not_mem_nil, or_false] at ha
  rcases ha with rfl | rfl | rfl | rfl
  · rw [h4, if_pos rfl]
    exact htable _ pt.l3_mem
  · rw [h3, if_pos rfl]
    exact htable _ pt.l2_mem
  · rw [h2]
    exact hlarge _ (by decide) rfl
  · rw [h1]
    exact hlarge _ (by decide) rfl

/-- A page that is none of the tables' is as before the setup. -/
lemma load64_other (ht : Tables pt m m') {a j : ℕ} (ha : a % 4096 = 0) (hout : a ∉ pt.pages)
    (hj : j < 512) : load64 m' (a + 8 * j) = load64 m (a + 8 * j) := by
  have haligned := pt.aligned
  simp only [PageTables.pages, PageTables.l3, PageTables.l2, PageTables.mmio, List.mem_cons,
    List.not_mem_nil, or_false, not_or] at hout
  apply load64_congr
  intro x hx hx'
  apply ht.other
  rw [PageTables.mmio]
  omega

/-- The entries behind the reserved ones are as before the setup. -/
lemma load64_mmio_rest (ht : Tables pt m m') {k : ℕ} (hk : 2 ≤ k) :
    load64 m' (pt.mmio + 8 * k) = load64 m (pt.mmio + 8 * k) := by
  apply load64_congr
  intro x hx hx'
  exact ht.other x (by omega)

/-- What an entry that is not written maps, over all addresses of the second gigabyte that it
translates. -/
lemma leadsNowhere_iff (ht : Tables pt m m') {k : ℕ} (hk : 2 ≤ k) (hlt : k < 512) :
    LeadsNowhere cpu pt m k ↔ ∀ v, 0x40000000 ≤ v → v < 0x80000000 → index 1 v = k →
      walk cpu m' 2 pt.mmio v = none := by
  set e := load64 m (pt.mmio + 8 * k) with he
  have hwalk : ∀ v, index 1 v = k → (walk cpu m' 2 pt.mmio v = none ↔ cpu.valid 2 e = false ∨
      largePage e = false ∧ cpu.valid 1 (load64 m' (frame 0 e + 8 * index 0 v)) = false) :=
    fun v hv => walk_eq_none_iff (by rw [hv, load64_mmio_rest ht hk])
  constructor
  · intro h v hlo hhi hv
    rw [hwalk v hv]
    rcases h with h | ⟨hl, hout, h⟩
    · exact .inl h
    · refine .inr ⟨hl, ?_⟩
      rw [load64_other ht (frame_zero_mod e) hout (index_lt 0 v)]
      exact h _ (index_lt 0 v)
  · intro h
    by_cases hv : cpu.valid 2 e = false
    · exact .inl hv
    · -- the pages of the entry, one after the other
      have hpage : ∀ j < 512, largePage e = false ∧
          cpu.valid 1 (load64 m' (frame 0 e + 8 * j)) = false := by
        intro j hj
        have hk' : index 1 (0x40000000 + 0x200000 * k + 0x1000 * j) = k := by
          simp only [index, Nat.mul_one, Nat.reduceAdd]
          omega
        have hj' : index 0 (0x40000000 + 0x200000 * k + 0x1000 * j) = j := by
          simp only [index, Nat.mul_zero, Nat.add_zero]
          omega
        have hnone := h _ (by omega) (by omega) hk'
        rw [hwalk _ hk', hj', or_iff_right hv] at hnone
        exact hnone
      have hout : frame 0 e ∉ pt.pages := by
        intro hin
        have hzero := (hpage 0 (by decide)).2
        rw [Nat.mul_zero, Nat.add_zero, valid_pages cpu ht hin] at hzero
        exact absurd hzero (by decide)
      refine .inr ⟨(hpage 0 (by decide)).1, hout, ?_⟩
      intro j hj
      rw [← load64_other ht (frame_zero_mod e) hout hj]
      exact (hpage j hj).2

/-- Outside the part of the second gigabyte that is not written the mapping is as meant. -/
lemma walk_of_written (ht : Tables pt m m') (hv : Canonical v)
    (hout : v < 0x40400000 ∨ 0x80000000 ≤ v) : walk cpu m' 4 pt.l4 v = mapped v := by
  have h4 : index 3 v = v / 2 ^ 39 % 512 := rfl
  have h3 : index 2 v = v / 2 ^ 30 % 512 := rfl
  have h2 : index 1 v = v / 2 ^ 21 % 512 := rfl
  rw [mapped]
  rcases Nat.lt_or_ge v 0x40000000 with hlow | hlow
  · rw [if_pos hlow, walk_l4 cpu ht (by omega), walk_l3 cpu ht (by omega), walk_l2 cpu ht,
      Option.some.injEq, Mapping.mk.injEq]
    exact ⟨by omega, rfl⟩
  rw [if_neg (by omega)]
  rcases hout with hout | hout
  · rw [if_pos hout, walk_l4 cpu ht (by omega), walk_l3_second cpu ht (by omega),
      walk_mmio cpu ht (by omega), Option.some.injEq, Mapping.mk.injEq]
    exact ⟨by omega, rfl⟩
  rw [if_neg (by omega)]
  -- above, one of the two upper tables has no entry for the address
  by_cases hzero : index 3 v = 0
  · rw [Canonical] at hv
    rw [walk_l4 cpu ht hzero, walk_l3_rest cpu ht (by omega)]
  · exact walk_l4_rest cpu ht hzero

/-- In the rest of the second gigabyte the translation is that of the table for the
registers. -/
lemma walk_of_rest (ht : Tables pt m m') (hlo : 0x40000000 ≤ v) (hhi : v < 0x80000000) :
    walk cpu m' 4 pt.l4 v = walk cpu m' 2 pt.mmio v := by
  have h4 : index 3 v = v / 2 ^ 39 % 512 := rfl
  have h3 : index 2 v = v / 2 ^ 30 % 512 := rfl
  rw [walk_l4 cpu ht (by omega), walk_l3_second cpu ht (by omega)]

lemma maps_iff (ht : Tables pt m m') :
    (∀ v, Canonical v → walk cpu m' 4 pt.l4 v = mapped v) ↔
      ∀ k, 2 ≤ k → k < 512 → LeadsNowhere cpu pt m k := by
  constructor
  · intro h k hk hlt
    rw [leadsNowhere_iff cpu ht hk hlt]
    intro v hlo hhi hv
    have hv' : v / 2 ^ 21 % 512 = k := hv
    rw [← walk_of_rest cpu ht hlo hhi, h v (.inl (by omega)), mapped, if_neg (by omega),
      if_neg (by omega)]
  · intro h v hv
    by_cases hout : v < 0x40400000 ∨ 0x80000000 ≤ v
    · exact walk_of_written cpu ht hv hout
    · have hk : index 1 v = v / 2 ^ 21 % 512 := rfl
      have hrest := h (index 1 v) (by omega) (index_lt 1 v)
      rw [leadsNowhere_iff cpu ht (by omega) (index_lt 1 v)] at hrest
      rw [walk_of_rest cpu ht (by omega) (by omega), hrest v (by omega) (by omega) rfl, mapped,
        if_neg (by omega), if_neg (by omega)]

end Walk

/-- The setup ends, and the mapping is as meant exactly if each of the entries that have not
been reserved leads nowhere. -/
theorem setupPageTables_maps_iff (cpu : Processor) (pt : PageTables) (s : Machine32)
    (hzero : Zeroed pt s.mem) :
    (∃ m', (∀ fuel, 512 ≤ fuel → ∃ t, setupPageTables pt fuel s = some t ∧ t.mem = m') ∧
        ∀ v, Canonical v → walk cpu m' 4 pt.l4 v = mapped v) ↔
      ∀ k, 2 ≤ k → k < 512 → LeadsNowhere cpu pt s.mem k := by
  rw [← maps_iff cpu (tables_tablesSet hzero)]
  constructor
  · rintro ⟨m', hrun, h⟩
    obtain ⟨t, ht, hm⟩ := hrun 512 (le_refl 512)
    obtain ⟨t', ht', hm'⟩ := setupPageTables_eq pt s (le_refl 512)
    rw [ht, Option.some.injEq] at ht'
    rw [← hm', ← ht', hm]
    exact h
  · intro h
    exact ⟨_, fun fuel hfuel => setupPageTables_eq pt s hfuel, h⟩

/-- A processor with physical addresses of 52 bits. -/
def widest : Processor where
  reserved l e := largePage e && (l = 4 || l = 3 && e / 2 ^ 13 % 2 ^ 17 ≠ 0 ||
    l = 2 && e / 2 ^ 13 % 2 ^ 8 ≠ 0)
  table_ok l e _ hl := by rw [hl, Bool.false_and]
  large_ok e _ h := by
    rw [h]
    simp
  page_ok e _ := by simp

/-- Tables at the first megabyte. -/
def placed : PageTables := ⟨0x100000, by decide, by decide⟩

/-- The registers are zero. -/
def started (m : Mem) : Machine32 := ⟨0, 0, 0, 0, m⟩

theorem setupPageTables_maps_cleared :
    ∃ m', (∀ fuel, 512 ≤ fuel → ∃ t, setupPageTables placed fuel (started fun _ => 0) = some t ∧
        t.mem = m') ∧
      ∀ v, Canonical v → walk widest m' 4 placed.l4 v = mapped v := by
  refine (setupPageTables_maps_iff widest placed _ fun _ _ _ => rfl).mpr ?_
  intro k hk hlt
  have hentry : load64 (started fun _ => 0).mem (placed.mmio + 8 * k) = 0 :=
    load64_of_zero fun _ _ _ => rfl
  left
  rw [hentry, zero_not_valid]

/-- Behind the reserved bytes is an entry for a large page. -/
def occupied : Mem := fun x => if x = placed.mmio + 16 then 0x83 else 0

/-- The address behind the registers is mapped, to the start of the memory. -/
theorem setupPageTables_maps_more :
    Zeroed placed occupied ∧ ¬ ∃ m', (∀ fuel, 512 ≤ fuel →
        ∃ t, setupPageTables placed fuel (started occupied) = some t ∧ t.mem = m') ∧
      ∀ v, Canonical v → walk widest m' 4 placed.l4 v = mapped v := by
  have hzero : Zeroed placed occupied := fun x _ hx => if_neg (Nat.ne_of_lt hx)
  refine ⟨hzero, ?_⟩
  rintro ⟨m', hrun, h⟩
  obtain ⟨t, ht, hm⟩ := hrun 512 (le_refl 512)
  obtain ⟨t', ht', hm'⟩ := setupPageTables_eq placed (started occupied) (le_refl 512)
  rw [ht, Option.some.injEq] at ht'
  have htables : Tables placed occupied m' := by
    rw [← hm, ht', hm']
    exact tables_tablesSet hzero
  have hentry : load64 occupied (placed.mmio + 8 * 2) = 0x83 := by decide
  have hmapped := h 0x40400000 (.inl (by decide))
  rw [walk_of_rest widest htables (by decide) (by decide), walk_of_large (e := 0x83)
    (by rw [← hentry]; exact load64_mmio_rest htables (le_refl 2)) (by decide) (by decide)]
    at hmapped
  exact absurd hmapped (by decide)

end EvtDrivenOs.Boot
