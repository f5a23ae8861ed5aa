/-
The string instructions that go through `al`: `lodsb`, `stosb` and `scasb`.

A `lodsb` followed by a `stosb` copies a byte as `movsb` does, but leaves it in the low
byte of `rax`.  `Loading` says so for any number of passes, over `Copying`.
-/
import Mathlib.Data.List.GetD
import EvtDrivenOs.Lib.X64Bytes

namespace EvtDrivenOs.Lib.X64

/-! ### Strings in memory -/

/-- The bytes from the address `a` on are `bs`. -/
def Bytes (m : BitVec 64 → BitVec 8) (a : BitVec 64) (bs : List (BitVec 8)) : Prop :=
  ∀ i b, bs[i]? = some b → m (a + BitVec.ofNat 64 i) = b

/-- There is a string at the address `a`: its text and a zero. -/
structure CText (m : BitVec 64 → BitVec 8) (a : BitVec 64) (text : List (BitVec 8)) : Prop where
  no_zero : 0 ∉ text
  bytes : Bytes m a (text ++ [0])

section Text

variable {m : BitVec 64 → BitVec 8} {a : BitVec 64} {text bs : List (BitVec 8)} {c : BitVec 8}

lemma bytes_iff : Bytes m a bs ↔ ∀ i : Fin bs.length, m (a + BitVec.ofNat 64 i) = bs[i] := by
  constructor
  · exact fun h i => h i bs[i] (List.getElem?_eq_getElem i.isLt)
  · intro h i b hi
    obtain ⟨hlt, rfl⟩ := List.getElem?_eq_some_iff.mp hi
    exact h ⟨i, hlt⟩

instance : Decidable (Bytes m a bs) := decidable_of_iff _ bytes_iff.symm

instance : Decidable (CText m a text) :=
  decidable_of_iff (0 ∉ text ∧ Bytes m a (text ++ [0]))
    ⟨fun h => ⟨h.1, h.2⟩, fun h => ⟨h.no_zero, h.bytes⟩⟩

lemma add_ofNat_succ (a : BitVec 64) (i : ℕ) :
    a + 1 + BitVec.ofNat 64 i = a + BitVec.ofNat 64 (i + 1) := by
  rw [add_assoc, Nat.add_comm i, BitVec.ofNat_add]
  rfl

lemma Bytes.tail (h : Bytes m a (c :: bs)) : Bytes m (a + 1) bs := by
  intro i b hi
  rw [add_ofNat_succ]
  exact h (i + 1) b hi

lemma Bytes.head (h : Bytes m a (c :: bs)) : m a = c := by
  have h0 := h 0 c rfl
  rwa [show a + BitVec.ofNat 64 0 = a from BitVec.add_zero a] at h0

/-- Bytes that are followed by others. -/
lemma bytes_append {bs' : List (BitVec 8)} : Bytes m a (bs ++ bs') ↔
    Bytes m a bs ∧ Bytes m (a + BitVec.ofNat 64 bs.length) bs' := by
  constructor
  · intro h
    refine ⟨fun i b hi => ?_, fun i b hi => ?_⟩
    · have hlt := (List.getElem?_eq_some_iff.mp hi).1
      exact h i b (by rwa [List.getElem?_append_left hlt])
    · rw [add_assoc, ← BitVec.ofNat_add]
      apply h
      rw [List.getElem?_append_right (Nat.le_add_right _ _), Nat.add_sub_cancel_left, hi]
  · rintro ⟨hfst, hsnd⟩ i b hi
    rcases Nat.lt_or_ge i bs.length with hlt | hge
    · rw [List.getElem?_append_left hlt] at hi
      exact hfst i b hi
    · rw [List.getElem?_append_right hge] at hi
      have hb := hsnd (i - bs.length) b hi
      rwa [add_assoc, ← BitVec.ofNat_add, Nat.add_sub_cancel' hge] at hb

lemma CText.nil (h : CText m a []) : m a = 0 := h.bytes.head

lemma CText.head (h : CText m a (c :: text)) : m a = c := h.bytes.head

lemma CText.head_ne (h : CText m a (c :: text)) : c ≠ 0 :=
  (List.ne_of_not_mem_cons h.no_zero).symm

lemma CText.tail (h : CText m a (c :: text)) : CText m (a + 1) text :=
  ⟨List.not_mem_of_not_mem_cons h.no_zero, h.bytes.tail⟩

lemma CText.ne_zero (h : CText m a text) {i : ℕ} (hi : i < text.length) :
    m (a + BitVec.ofNat 64 i) ≠ 0 := by
  rw [h.bytes i text[i] (by rw [List.getElem?_append_left hi, List.getElem?_eq_getElem hi])]
  exact fun h0 => h.no_zero (h0 ▸ List.getElem_mem hi)

lemma CText.terminator (h : CText m a text) : m (a + BitVec.ofNat 64 text.length) = 0 :=
  h.bytes text.length 0 (by simp)

/-- A string is shorter than the address space: the terminator would be one of its characters. -/
lemma CText.length_lt (h : CText m a text) : text.length < 2 ^ 64 := by
  by_contra hlong
  have hterm := h.terminator
  have hwrap : BitVec.ofNat 64 text.length = BitVec.ofNat 64 (text.length - 2 ^ 64) := by
    apply BitVec.eq_of_toNat_eq
    simp only [BitVec.toNat_ofNat]
    omega
  rw [hwrap] at hterm
  exact h.ne_zero (by omega) hterm

end Text

/-! ### The instructions -/

namespace Machine

variable (s : Machine)

/-- `pop rdi` -/
@[simp] def popRdi : Machine := { s.drop with rdi := s.top }

/-- `lodsb`: a byte from `rsi` goes to `al`. -/
def lodsb : Machine := { s.setAl (s.mem s.rsi) with rsi := s.rsi + s.byteStep }

/-- `stosb`: `al` goes to memory at `rdi`. -/
def stosb : Machine :=
  { s with mem := Function.update s.mem s.rdi s.al, rdi := s.rdi + s.byteStep }

/-- The instruction `rep stosb`. -/
def repStosb : Machine := (fun s => s.stosb.decRcx)^[s.rcx.toNat] s

/-- At most `n` of the comparisons of `repnz scasb`. -/
def scasbs : ℕ → Machine → Machine
  | 0, s => s
  | n + 1, s =>
    let t := { s with rdi := s.rdi + s.byteStep }.decRcx
    if s.al = s.mem s.rdi then t else scasbs n t

/-- The instruction `repnz scasb`. -/
def repnzScasb : Machine := scasbs s.rcx.toNat s

/-- The byte that the pass `i` of a copy upwards loads: behind the distance of the two ranges
it is one that was copied before. -/
def loaded (i : ℕ) : BitVec 8 := s.mem (s.rsi + BitVec.ofNat 64 (i % s.gap))

/-- What is in `rax` after `k` passes. -/
def raxAfter : ℕ → BitVec 64
  | 0 => s.rax
  | k + 1 => setLow8 s.rax (s.loaded k)

end Machine

/-- A write to the low byte changes nothing just if it writes what is there. -/
lemma setLow8_eq_self_iff {r : BitVec 64} {v : BitVec 8} : setLow8 r v = r ↔ r.setWidth 8 = v := by
  constructor
  · intro h
    rw [← h, low8_setLow8]
  · rintro rfl
    apply BitVec.eq_of_getLsbD_eq
    intro i hi
    simp only [setLow8, BitVec.getLsbD_append, BitVec.getLsbD_extractLsb', BitVec.getLsbD_setWidth]
    by_cases h8 : i < 8
    · simp [h8]
    · have h56 : i - 8 < 56 := by omega
      simp [h8, h56, show 8 + (i - 8) = i by omega]

/-! ### Copies through `al` -/

variable {s t : Machine} {k : ℕ}

/-- What a copy upwards leaves, by the source's bytes alone. -/
lemma Copying.value (h : Copying s k t) {i : ℕ} (hi : i < k) :
    t.mem (s.rdi + BitVec.ofNat 64 i) = s.loaded i := by
  induction i using Nat.strong_induction_on with
  | _ i ih =>
    by_cases hgap : s.gap = 0 ∨ i < s.gap
    · have hmod : i % s.gap = i := by
        rcases hgap with hzero | hlt
        · rw [hzero, Nat.mod_zero]
        · exact Nat.mod_eq_of_lt hlt
      rw [h.first i hi hgap, Machine.loaded, hmod]
    · obtain ⟨j, rfl⟩ : ∃ j, i = j + s.gap := ⟨i - s.gap, by omega⟩
      rw [h.again j hi, ih j (by omega) (by omega), Machine.loaded, Machine.loaded,
        Nat.add_mod_right]

/-- `t` is reached from `s` by `k` times `lodsb` and `stosb`, whatever `rcx` does. -/
structure Loading (s : Machine) (k : ℕ) (t : Machine) : Prop where
  copying : Copying s k { t with rax := s.rax, rcx := s.rcx - BitVec.ofNat 64 k }
  rax : t.rax = s.raxAfter k

namespace Loading

lemma refl (s : Machine) : Loading s 0 s := by
  refine ⟨?_, rfl⟩
  have hrcx : s.rcx - BitVec.ofNat 64 0 = s.rcx := BitVec.sub_zero s.rcx
  rw [hrcx]
  exact Copying.refl s

lemma rsi (h : Loading s k t) : t.rsi = s.rsi + BitVec.ofNat 64 k := h.copying.rsi

lemma rdi (h : Loading s k t) : t.rdi = s.rdi + BitVec.ofNat 64 k := h.copying.rdi

lemma df (h : Loading s k t) : t.df = s.df := h.copying.df

lemma value (h : Loading s k t) {i : ℕ} (hi : i < k) :
    t.mem (s.rdi + BitVec.ofNat 64 i) = s.loaded i := h.copying.value hi

lemma frame (h : Loading s k t) {a : BitVec 64}
    (ha : ∀ i < k, a ≠ s.rdi + BitVec.ofNat 64 i) : t.mem a = s.mem a := h.copying.frame a ha

/-- The next byte. -/
lemma load (h : Loading s k t) (hdf : s.df = false) (hk : k < 2 ^ 64) :
    t.mem t.rsi = s.loaded k := by
  have hnext := (h.copying.succ hdf hk).value (Nat.lt_succ_self k)
  rw [← h.rdi] at hnext
  have hstored : Function.update t.mem t.rdi (t.mem t.rsi) t.rdi = s.loaded k := hnext
  rwa [Function.update_self] at hstored

/-- One more pass; `rcx` may be decremented in it. -/
lemma succ (h : Loading s k t) (hdf : s.df = false) (hk : k < 2 ^ 64) (rcx : BitVec 64) :
    Loading s (k + 1) { t.lodsb.stosb with rcx := rcx } := by
  constructor
  · have hcopy := h.copying.succ hdf hk
    have hstate : ({ ({ t.lodsb.stosb with rcx := rcx } : Machine) with
          rax := s.rax, rcx := s.rcx - BitVec.ofNat 64 (k + 1) } : Machine) =
        ({ t with rax := s.rax, rcx := s.rcx - BitVec.ofNat 64 k } : Machine).movsb.decRcx := by
      simp only [Machine.lodsb, Machine.stosb, Machine.movsb, Machine.decRcx, Machine.byteStep,
        Machine.setAl, Machine.al, low8_setLow8, BitVec.ofNat_add, sub_sub]
      rfl
    rw [hstate]
    exact hcopy
  · show setLow8 t.rax (t.mem t.rsi) = setLow8 s.rax (s.loaded k)
    rw [h.load hdf hk, h.rax]
    cases k with
    | zero => rfl
    | succ k => exact setLow8_setLow8 _ _ _

end Loading

/-- The ranges of a copy do not overlap: each byte is loaded as it was. -/
lemma Machine.loaded_of_disjoint {n i : ℕ} (hi : i < n)
    (hdisj : ∀ i < n, s.rsi + BitVec.ofNat 64 i ≠ s.rdi) :
    s.loaded i = s.mem (s.rsi + BitVec.ofNat 64 i) := by
  have hgap : i < s.gap := by
    by_contra hle
    apply hdisj s.gap (by omega)
    rw [gap, BitVec.ofNat_toNat, BitVec.setWidth_eq, add_sub_cancel]
  rw [loaded, Nat.mod_eq_of_lt hgap]

/-! ### `rep stosb` -/

/-- `t` is reached from `s` by storing `al` `k` times upwards. -/
structure Storing (s : Machine) (k : ℕ) (t : Machine) : Prop where
  regs : t = { s with
    mem := t.mem, rdi := s.rdi + BitVec.ofNat 64 k, rcx := s.rcx - BitVec.ofNat 64 k }
  stored : ∀ i < k, t.mem (s.rdi + BitVec.ofNat 64 i) = s.al
  frame : ∀ a, (∀ i < k, a ≠ s.rdi + BitVec.ofNat 64 i) → t.mem a = s.mem a

namespace Storing

lemma refl (s : Machine) : Storing s 0 s := by
  refine ⟨?_, fun i hi => absurd hi (Nat.not_lt_zero i), fun _ _ => rfl⟩
  have hrdi : s.rdi + BitVec.ofNat 64 0 = s.rdi := BitVec.add_zero s.rdi
  have hrcx : s.rcx - BitVec.ofNat 64 0 = s.rcx := BitVec.sub_zero s.rcx
  rw [hrdi, hrcx]

lemma succ (h : Storing s k t) (hdf : s.df = false) (hk : k < 2 ^ 64) :
    Storing s (k + 1) t.stosb.decRcx := by
  have hrdi : t.rdi = s.rdi + BitVec.ofNat 64 k := by
    rw [h.regs]
  have hal : t.al = s.al := by
    rw [h.regs]
    rfl
  have hmem : t.stosb.decRcx.mem = Function.update t.mem (s.rdi + BitVec.ofNat 64 k) s.al := by
    rw [← hrdi, ← hal]
    rfl
  refine ⟨?_, fun i hi => ?_, fun a ha => ?_⟩
  · have hdf' : t.df = false := by
      rw [h.regs]
      exact hdf
    have hstep : t.stosb.decRcx = { t with
        mem := t.stosb.decRcx.mem, rdi := t.rdi + 1, rcx := t.rcx - 1 } := by
      simp only [Machine.stosb, Machine.decRcx, Machine.byteStep, hdf']
      rfl
    rw [hstep, h.regs]
    simp only [BitVec.ofNat_add, add_assoc, sub_sub]
    rfl
  · rw [hmem]
    rcases Nat.lt_succ_iff_lt_or_eq.mp hi with hi | rfl
    · rw [Function.update_of_ne (add_ofNat_ne s.rdi hi (by omega)), h.stored i hi]
    · exact Function.update_self _ _ _
  · rw [hmem, Function.update_of_ne (ha k (Nat.lt_succ_self k))]
    exact h.frame a fun i hi => ha i (Nat.lt_succ_of_lt hi)

lemma iterate (hdf : s.df = false) (hk : k ≤ 2 ^ 64) :
    Storing s k ((fun s => s.stosb.decRcx)^[k] s) := by
  induction k with
  | zero => exact refl s
  | succ k ih =>
    rw [Function.iterate_succ_apply']
    exact (ih (by omega)).succ hdf (by omega)

lemma repStosb (hdf : s.df = false) : Storing s s.rcx.toNat s.repStosb :=
  iterate hdf s.rcx.isLt.le

end Storing

/-! ### `repnz scasb` -/

/-- The scan of a string for its terminator goes one byte behind it. -/
lemma scasbs_of_cText {text : List (BitVec 8)} {n : ℕ} (hdf : s.df = false) (hal : s.al = 0)
    (h : CText s.mem s.rdi text) (hn : text.length < n) :
    Machine.scasbs n s = { s with
      rdi := s.rdi + BitVec.ofNat 64 (text.length + 1)
      rcx := s.rcx - BitVec.ofNat 64 (text.length + 1) } := by
  have hstep : s.byteStep = 1 := by
    rw [Machine.byteStep, hdf]
    rfl
  induction text generalizing s n with
  | nil =>
    obtain ⟨n, rfl⟩ : ∃ m, n = m + 1 := ⟨n - 1, by omega⟩
    rw [Machine.scasbs, if_pos (by rw [hal, h.nil]), hstep]
    rfl
  | cons c text ih =>
    obtain ⟨n, rfl⟩ : ∃ m, n = m + 1 := ⟨n - 1, by omega⟩
    have hne : ¬ s.al = s.mem s.rdi := by
      rw [hal, h.head]
      exact h.head_ne.symm
    rw [Machine.scasbs, if_neg hne, hstep]
    rw [ih (s := ({ s with rdi := s.rdi + 1 } : Machine).decRcx) hdf hal h.tail
      (Nat.lt_of_succ_lt_succ hn) hstep]
    have hrcx : (1 : BitVec 64) + BitVec.ofNat 64 (text.length + 1) =
        BitVec.ofNat 64 (text.length + 1 + 1) := by
      rw [Nat.add_comm (text.length + 1), BitVec.ofNat_add 1]
      rfl
    simp only [Machine.decRcx, add_ofNat_succ, sub_sub, hrcx, List.length_cons]

end EvtDrivenOs.Lib.X64
