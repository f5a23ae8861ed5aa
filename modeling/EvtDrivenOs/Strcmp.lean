/-
The string comparisons of the x86-64 build, `_arch_strcmp` and `_arch_strncmp`.

Both return the difference of the first two bytes that differ, taken as unsigned, and so
the order of the texts: a terminator is below every character.  The addresses that are
read are recorded, so that it can be said that no routine reads behind a terminator or
behind `n` bytes.
-/
import EvtDrivenOs.Lib.X64Strings

namespace EvtDrivenOs.Strcmp

open EvtDrivenOs.Lib.X64

/-- The processor, and the addresses that were read, the latest first. -/
structure Reader where
  cpu : Machine
  reads : List (BitVec 64)

/-! ### The routines -/

namespace Reader

variable (s : Reader)

/-- `mov al, [rdi]` -/
def movAlRdi : Reader :=
  { cpu := s.cpu.setAl (s.cpu.mem s.cpu.rdi), reads := s.cpu.rdi :: s.reads }

/-- `mov cl, [rsi]` -/
def movClRsi : Reader :=
  { cpu := { s.cpu with rcx := setLow8 s.cpu.rcx (s.cpu.mem s.cpu.rsi) }
    reads := s.cpu.rsi :: s.reads }

/-- `mov dl, [rsi]` -/
def movDlRsi : Reader :=
  { cpu := { s.cpu with rdx := setLow8 s.cpu.rdx (s.cpu.mem s.cpu.rsi) }
    reads := s.cpu.rsi :: s.reads }

/-- `xor rax, rax`, at `.strcmp_matched` and `.strncmp_matched` -/
def matched : Reader := { s with cpu := { s.cpu with rax := 0 } }

/-- `inc rdi` and `inc rsi` -/
def next : Reader := { s with cpu := { s.cpu with rdi := s.cpu.rdi + 1, rsi := s.cpu.rsi + 1 } }

/-- `.strcmp_not_matched` -/
def strcmpNotMatched : Reader :=
  let cpu := { s.cpu with rax := (s.cpu.rax.setWidth 8).setWidth 64 }
  let cpu := { cpu with rcx := (cpu.rcx.setWidth 8).setWidth 64 }
  { s with cpu := { cpu with rax := cpu.rax - cpu.rcx } }

/-- `.strncmp_not_matched` -/
def strncmpNotMatched : Reader :=
  let cpu := { s.cpu with rax := (s.cpu.rax.setWidth 8).setWidth 64 }
  let cpu := { cpu with rdx := (cpu.rdx.setWidth 8).setWidth 64 }
  { s with cpu := { cpu with rax := cpu.rax - cpu.rdx } }

/-- `rdi` and `rsi` have the strings. -/
def archStrcmp : ℕ → Reader → Option Reader
  | 0, _ => none
  | fuel + 1, s =>
    let s := s.movAlRdi
    let s := s.movClRsi
    if s.cpu.rax.setWidth 8 ≠ s.cpu.rcx.setWidth 8 then some s.strcmpNotMatched
    else if s.cpu.al ||| s.cpu.al = 0 then some s.matched
    else archStrcmp fuel s.next

/-- `.strncmp_loop` -/
def strncmpLoop : ℕ → Reader → Option Reader
  | 0, _ => none
  | fuel + 1, s =>
    let s := s.movAlRdi
    let s := s.movDlRsi
    if s.cpu.rax.setWidth 8 ≠ s.cpu.rdx.setWidth 8 then some s.strncmpNotMatched
    else if s.cpu.al ||| s.cpu.al = 0 then some s.matched
    else
      let s := s.next
      let s := { s with cpu := s.cpu.decRcx }
      if s.cpu.rcx ≠ 0 then strncmpLoop fuel s else some s.strncmpNotMatched

/-- `rdi` and `rsi` have the strings and `rdx` the number of bytes. -/
def archStrncmp (fuel : ℕ) : Option Reader :=
  let s := { s with cpu := { s.cpu with rcx := s.cpu.rdx } }
  if s.cpu.rcx ||| s.cpu.rcx = 0 then some s.matched else strncmpLoop fuel s

end Reader

/-- The `int` that `strcmp` returns, and the addresses it reads. -/
def strcmp (s1 s2 : BitVec 64) (s : Machine) (fuel : ℕ) :
    Option (BitVec 32 × List (BitVec 64)) :=
  (Reader.archStrcmp fuel ⟨{ s with rdi := s1, rsi := s2 }, []⟩).map fun t =>
    (t.cpu.rax.setWidth 32, t.reads)

/-- The result of the C function, and the addresses that it has read. -/
def strncmp (s1 s2 n : BitVec 64) (s : Machine) (fuel : ℕ) :
    Option (BitVec 32 × List (BitVec 64)) :=
  (Reader.archStrncmp ⟨{ s with rdi := s1, rsi := s2, rdx := n }, []⟩ fuel).map fun t =>
    (t.cpu.rax.setWidth 32, t.reads)

/-! ### The order of texts -/

/-- The difference of the first bytes that differ, with a zero behind each text. -/
def firstDifference : List (BitVec 8) → List (BitVec 8) → BitVec 64
  | [], [] => 0
  | [], d :: _ => 0 - d.setWidth 64
  | c :: _, [] => c.setWidth 64 - 0
  | c :: text₁, d :: text₂ =>
    if c = d then firstDifference text₁ text₂ else c.setWidth 64 - d.setWidth 64

/-- The sign of the `int` is the order of the texts. -/
structure Orders (r : BitVec 32) (text₁ text₂ : List (BitVec 8)) : Prop where
  /-- Less. -/
  neg : r.toInt < 0 ↔ text₁ < text₂
  /-- Equal. -/
  zero : r = 0 ↔ text₁ = text₂
  /-- Greater. -/
  pos : 0 < r.toInt ↔ text₂ < text₁

variable {c d : BitVec 8} {text₁ text₂ : List (BitVec 8)}

/-- The difference of two bytes in 32 bits has their order as its sign. -/
lemma toInt_difference (c d : BitVec 8) :
    ((c.setWidth 64 - d.setWidth 64).setWidth 32).toInt = (c.toNat : ℤ) - d.toNat := by
  have hc := c.isLt
  have hd := d.isLt
  rw [BitVec.toInt_eq_toNat_cond]
  simp only [BitVec.toNat_setWidth, BitVec.toNat_sub]
  split_ifs <;> omega

lemma eq_zero_iff_toInt (r : BitVec 32) : r = 0 ↔ r.toInt = 0 :=
  ⟨fun h => h ▸ rfl, fun h => BitVec.eq_of_toInt_eq h⟩

lemma Orders.difference (hcd : c ≠ d) :
    Orders ((c.setWidth 64 - d.setWidth 64).setWidth 32) (c :: text₁) (d :: text₂) := by
  have hne : c.toNat ≠ d.toNat := fun h => hcd (BitVec.eq_of_toNat_eq h)
  have hint := toInt_difference c d
  constructor
  · simp only [hint, List.cons_lt_cons_iff, hcd, false_and, or_false, BitVec.lt_def]
    omega
  · rw [eq_zero_iff_toInt, hint]
    simp only [List.cons.injEq, hcd, false_and, iff_false]
    omega
  · simp only [hint, List.cons_lt_cons_iff, hcd.symm, false_and, or_false, BitVec.lt_def]
    omega

lemma Orders.cons {r : BitVec 32} (h : Orders r text₁ text₂) :
    Orders r (c :: text₁) (c :: text₂) := by
  have hirr : ¬ c < c := BitVec.lt_irrefl c
  constructor
  · rw [h.neg, List.cons_lt_cons_iff]
    simp only [hirr, false_or, true_and]
  · rw [h.zero]
    simp only [List.cons.injEq, true_and]
  · rw [h.pos, List.cons_lt_cons_iff]
    simp only [hirr, false_or, true_and]

/-- The zero behind the shorter text is below what the longer one has there. -/
lemma firstDifference_orders (h1 : 0 ∉ text₁) (h2 : 0 ∉ text₂) :
    Orders ((firstDifference text₁ text₂).setWidth 32) text₁ text₂ := by
  induction text₁ generalizing text₂ with
  | nil =>
    cases text₂ with
    | nil => exact ⟨by decide, by decide, by decide⟩
    | cons d text₂ =>
      have hd : d.toNat ≠ 0 := fun h =>
        List.ne_of_not_mem_cons h2 (BitVec.eq_of_toNat_eq h).symm
      have hint : ((firstDifference [] (d :: text₂)).setWidth 32).toInt = 0 - d.toNat :=
        toInt_difference 0 d
      constructor
      · simp only [hint, List.nil_lt_cons, iff_true]
        omega
      · rw [eq_zero_iff_toInt, hint]
        simp only [reduceCtorEq, iff_false]
        omega
      · simp only [hint, List.not_lt_nil, iff_false]
        omega
  | cons c text₁ ih =>
    cases text₂ with
    | nil =>
      have hc : c.toNat ≠ 0 := fun h =>
        List.ne_of_not_mem_cons h1 (BitVec.eq_of_toNat_eq h).symm
      have hint : ((firstDifference (c :: text₁) []).setWidth 32).toInt = c.toNat - 0 :=
        toInt_difference c 0
      constructor
      · simp only [hint, List.not_lt_nil, iff_false]
        omega
      · rw [eq_zero_iff_toInt, hint]
        simp only [reduceCtorEq, iff_false]
        omega
      · simp only [hint, List.nil_lt_cons, iff_true]
        omega
    | cons d text₂ =>
      by_cases hcd : c = d
      · subst hcd
        rw [firstDifference, if_pos rfl]
        exact (ih (List.not_mem_of_not_mem_cons h1) (List.not_mem_of_not_mem_cons h2)).cons
      · rw [firstDifference, if_neg hcd]
        exact Orders.difference hcd

/-- The characters behind the end of the shorter text do not matter. -/
lemma firstDifference_take {n : ℕ} (hn : min text₁.length text₂.length < n) :
    firstDifference (text₁.take n) (text₂.take n) = firstDifference text₁ text₂ := by
  induction n generalizing text₁ text₂ with
  | zero => exact absurd hn (Nat.not_lt_zero _)
  | succ n ih =>
    cases text₁ with
    | nil => cases text₂ <;> rfl
    | cons c text₁ =>
      cases text₂ with
      | nil => rfl
      | cons d text₂ =>
        simp only [List.length_cons] at hn
        simp only [List.take_succ_cons, firstDifference]
        rw [ih (by omega)]

/-! ### The loops -/

/-- One of the `n` addresses from `base` on. -/
def Among (base : BitVec 64) (n : ℕ) (a : BitVec 64) : Prop :=
  ∃ i < n, a = base + BitVec.ofNat 64 i

lemma Among.base (base : BitVec 64) (n : ℕ) : Among base (n + 1) base :=
  ⟨0, Nat.succ_pos n, (BitVec.add_zero base).symm⟩

lemma Among.step {base a : BitVec 64} {n : ℕ} (h : Among (base + 1) n a) :
    Among base (n + 1) a := by
  obtain ⟨i, hi, rfl⟩ := h
  exact ⟨i + 1, Nat.succ_lt_succ hi, add_ofNat_succ base i⟩

/-- `t` returns the order of the texts, and has read, after `s`, at most `n₁` bytes of the first
and `n₂` of the second. -/
structure Compared (s : Reader) (n₁ n₂ : ℕ) (text₁ text₂ : List (BitVec 8)) (t : Reader) :
    Prop where
  rax : t.cpu.rax = firstDifference text₁ text₂
  reads : ∀ a ∈ t.reads, a ∈ s.reads ∨ Among s.cpu.rdi n₁ a ∨ Among s.cpu.rsi n₂ a

namespace Compared

variable {s t u : Reader} {n₁ n₂ : ℕ}

/-- The addresses of the first characters are among those that may be read. -/
lemma first_reads {x : BitVec 64} (hx : x ∈ s.cpu.rsi :: s.cpu.rdi :: s.reads) :
    x ∈ s.reads ∨ Among s.cpu.rdi (n₁ + 1) x ∨ Among s.cpu.rsi (n₂ + 1) x := by
  simp only [List.mem_cons] at hx
  rcases hx with rfl | rfl | hx
  · exact .inr (.inr (Among.base _ _))
  · exact .inr (.inl (Among.base _ _))
  · exact .inl hx

/-- The routine returns after the first characters. -/
lemma first (hrax : t.cpu.rax = firstDifference text₁ text₂)
    (hreads : t.reads = s.cpu.rsi :: s.cpu.rdi :: s.reads) :
    Compared s (n₁ + 1) (n₂ + 1) text₁ text₂ t := by
  refine ⟨hrax, fun x hx => ?_⟩
  rw [hreads] at hx
  exact first_reads hx

/-- The first characters are the same, and the routine goes on behind them. -/
lemma cons (h : Compared u n₁ n₂ text₁ text₂ t) (hrdi : u.cpu.rdi = s.cpu.rdi + 1)
    (hrsi : u.cpu.rsi = s.cpu.rsi + 1) (hreads : u.reads = s.cpu.rsi :: s.cpu.rdi :: s.reads) :
    Compared s (n₁ + 1) (n₂ + 1) (c :: text₁) (c :: text₂) t := by
  refine ⟨?_, fun x hx => ?_⟩
  · rw [h.rax, firstDifference, if_pos rfl]
  · rcases h.reads x hx with hbefore | hfst | hsnd
    · rw [hreads] at hbefore
      exact first_reads hbefore
    · rw [hrdi] at hfst
      exact .inr (.inl hfst.step)
    · rw [hrsi] at hsnd
      exact .inr (.inr hsnd.step)

end Compared

section Heads

variable {m : BitVec 64 → BitVec 8} {a b : BitVec 64}

/-- The first characters are the same: the texts are both empty, or neither is. -/
lemma heads_eq (h1 : CText m a text₁) (h2 : CText m b text₂) (heq : m a = m b) :
    (m a = 0 ∧ text₁ = [] ∧ text₂ = []) ∨
      ∃ c l₁ l₂, m a = c ∧ c ≠ 0 ∧ text₁ = c :: l₁ ∧ text₂ = c :: l₂ := by
  cases text₁ with
  | nil =>
    cases text₂ with
    | nil => exact .inl ⟨h1.nil, rfl, rfl⟩
    | cons d text₂ => exact absurd (h2.head.symm.trans (heq.symm.trans h1.nil)) h2.head_ne
  | cons c text₁ =>
    cases text₂ with
    | nil => exact absurd (h1.head.symm.trans (heq.trans h2.nil)) h1.head_ne
    | cons d text₂ =>
      have hcd : c = d := h1.head.symm.trans (heq.trans h2.head)
      exact .inr ⟨c, text₁, text₂, h1.head, h1.head_ne, rfl, hcd ▸ rfl⟩

lemma firstDifference_of_ne (h1 : CText m a text₁) (h2 : CText m b text₂) (hne : m a ≠ m b)
    (n : ℕ) : firstDifference (text₁.take (n + 1)) (text₂.take (n + 1)) =
      (m a).setWidth 64 - (m b).setWidth 64 := by
  cases text₁ with
  | nil =>
    cases text₂ with
    | nil => exact absurd (h1.nil.trans h2.nil.symm) hne
    | cons d text₂ =>
      rw [h1.nil, h2.head]
      rfl
  | cons c text₁ =>
    cases text₂ with
    | nil =>
      rw [h1.head, h2.nil]
      rfl
    | cons d text₂ =>
      rw [h1.head, h2.head] at hne ⊢
      rw [List.take_succ_cons, List.take_succ_cons, firstDifference, if_neg hne]

end Heads

namespace Reader

variable {s : Reader}

/-- One pass of `_arch_strcmp`; the `or` only sets the zero flag. -/
lemma archStrcmp_succ (fuel : ℕ) (s : Reader) : archStrcmp (fuel + 1) s =
    if s.cpu.mem s.cpu.rdi ≠ s.cpu.mem s.cpu.rsi then some s.movAlRdi.movClRsi.strcmpNotMatched
    else if s.cpu.mem s.cpu.rdi = 0 then some s.movAlRdi.movClRsi.matched
    else archStrcmp fuel s.movAlRdi.movClRsi.next := by
  rw [archStrcmp]
  simp only [movAlRdi, movClRsi, Machine.setAl, Machine.al, low8_setLow8, BitVec.or_self]

/-- What `.strncmp_loop` goes on with behind an equal character. -/
def counted (s : Reader) : Reader :=
  { s.movAlRdi.movDlRsi.next with cpu := s.movAlRdi.movDlRsi.next.cpu.decRcx }

/-- One pass of `.strncmp_loop`. -/
lemma strncmpLoop_succ (fuel : ℕ) (s : Reader) : strncmpLoop (fuel + 1) s =
    if s.cpu.mem s.cpu.rdi ≠ s.cpu.mem s.cpu.rsi then some s.movAlRdi.movDlRsi.strncmpNotMatched
    else if s.cpu.mem s.cpu.rdi = 0 then some s.movAlRdi.movDlRsi.matched
    else if s.cpu.rcx - 1 ≠ 0 then strncmpLoop fuel s.counted
    else some s.counted.strncmpNotMatched := by
  rw [strncmpLoop]
  simp only [movAlRdi, movDlRsi, Machine.setAl, Machine.al, low8_setLow8, BitVec.or_self]
  rfl

@[simp] lemma strcmpNotMatched_rax (s : Reader) :
    s.movAlRdi.movClRsi.strcmpNotMatched.cpu.rax =
      (s.cpu.mem s.cpu.rdi).setWidth 64 - (s.cpu.mem s.cpu.rsi).setWidth 64 := by
  simp only [strcmpNotMatched, movAlRdi, movClRsi, Machine.setAl, low8_setLow8]

@[simp] lemma strncmpNotMatched_rax (s : Reader) :
    s.movAlRdi.movDlRsi.strncmpNotMatched.cpu.rax =
      (s.cpu.mem s.cpu.rdi).setWidth 64 - (s.cpu.mem s.cpu.rsi).setWidth 64 := by
  simp only [strncmpNotMatched, movAlRdi, movDlRsi, Machine.setAl, low8_setLow8]

@[simp] lemma counted_strncmpNotMatched_rax (s : Reader) :
    s.counted.strncmpNotMatched.cpu.rax =
      (s.cpu.mem s.cpu.rdi).setWidth 64 - (s.cpu.mem s.cpu.rsi).setWidth 64 := by
  simp only [counted, strncmpNotMatched, movAlRdi, movDlRsi, next, Machine.decRcx, Machine.setAl,
    low8_setLow8]

/-- The first characters differ; a text that is empty has its terminator there. -/
lemma archStrcmp_differ (h1 : CText s.cpu.mem s.cpu.rdi text₁)
    (h2 : CText s.cpu.mem s.cpu.rsi text₂)
    (hne : s.cpu.mem s.cpu.rdi ≠ s.cpu.mem s.cpu.rsi) (n₁ n₂ k : ℕ) :
    ∃ t, Compared s (n₁ + 1) (n₂ + 1) text₁ text₂ t ∧
      ∀ fuel, k < fuel → archStrcmp fuel s = some t := by
  refine ⟨s.movAlRdi.movClRsi.strcmpNotMatched, Compared.first ?_ rfl, fun fuel hfuel => ?_⟩
  · rw [strcmpNotMatched_rax, ← firstDifference_of_ne h1 h2 hne (min text₁.length text₂.length)]
    exact firstDifference_take (Nat.lt_succ_self _)
  · obtain ⟨fuel, rfl⟩ : ∃ f, fuel = f + 1 := ⟨fuel - 1, by omega⟩
    rw [archStrcmp_succ, if_pos hne]

lemma archStrcmp_compared (h1 : CText s.cpu.mem s.cpu.rdi text₁)
    (h2 : CText s.cpu.mem s.cpu.rsi text₂) :
    ∃ t, Compared s (text₁.length + 1) (text₂.length + 1) text₁ text₂ t ∧
      ∀ fuel, text₁.length < fuel → archStrcmp fuel s = some t := by
  -- each pass takes an equal character off both texts
  induction text₁ generalizing s text₂ with
  | nil =>
    by_cases heq : s.cpu.mem s.cpu.rdi = s.cpu.mem s.cpu.rsi
    · rcases heads_eq h1 h2 heq with ⟨hzero, -, rfl⟩ | ⟨c, l₁, l₂, -, -, hcons, -⟩
      · refine ⟨s.movAlRdi.movClRsi.matched, Compared.first rfl rfl, fun fuel hfuel => ?_⟩
        obtain ⟨fuel, rfl⟩ : ∃ f, fuel = f + 1 := ⟨fuel - 1, by omega⟩
        rw [archStrcmp_succ, if_neg (not_not_intro heq), if_pos hzero]
      · cases hcons
    · exact archStrcmp_differ h1 h2 heq _ _ _
  | cons c text₁ ih =>
    by_cases heq : s.cpu.mem s.cpu.rdi = s.cpu.mem s.cpu.rsi
    · rcases heads_eq h1 h2 heq with ⟨-, hnil, -⟩ | ⟨d, l₁, l₂, hd, hd0, hcons, rfl⟩
      · cases hnil
      · cases hcons
        obtain ⟨t, ht, hrun⟩ := ih (s := s.movAlRdi.movClRsi.next) h1.tail h2.tail
        refine ⟨t, ht.cons rfl rfl rfl, fun fuel hfuel => ?_⟩
        obtain ⟨fuel, rfl⟩ : ∃ f, fuel = f + 1 := ⟨fuel - 1, by omega⟩
        have hzero : ¬ s.cpu.mem s.cpu.rdi = 0 := hd ▸ hd0
        rw [archStrcmp_succ, if_neg (not_not_intro heq), if_neg hzero]
        exact hrun fuel (Nat.lt_of_succ_lt_succ hfuel)
    · exact archStrcmp_differ h1 h2 heq _ _ _

lemma strncmpLoop_differ (h1 : CText s.cpu.mem s.cpu.rdi text₁)
    (h2 : CText s.cpu.mem s.cpu.rsi text₂)
    (hne : s.cpu.mem s.cpu.rdi ≠ s.cpu.mem s.cpu.rsi) (n n₁ n₂ k : ℕ) :
    ∃ t, Compared s (n₁ + 1) (n₂ + 1) (text₁.take (n + 1)) (text₂.take (n + 1)) t ∧
      ∀ fuel, k < fuel → strncmpLoop fuel s = some t := by
  refine ⟨s.movAlRdi.movDlRsi.strncmpNotMatched, Compared.first ?_ rfl, fun fuel hfuel => ?_⟩
  · rw [strncmpNotMatched_rax, firstDifference_of_ne h1 h2 hne]
  · obtain ⟨fuel, rfl⟩ : ∃ f, fuel = f + 1 := ⟨fuel - 1, by omega⟩
    rw [strncmpLoop_succ, if_pos hne]

/-- The loop, with `n + 1` bytes to compare. -/
lemma strncmpLoop_compared {n : ℕ} (h1 : CText s.cpu.mem s.cpu.rdi text₁)
    (h2 : CText s.cpu.mem s.cpu.rsi text₂) (hn : s.cpu.rcx.toNat = n + 1) :
    ∃ t, Compared s (min text₁.length n + 1) (min text₂.length n + 1)
        (text₁.take (n + 1)) (text₂.take (n + 1)) t ∧
      ∀ fuel, text₁.length < fuel → strncmpLoop fuel s = some t := by
  induction text₁ generalizing s text₂ n with
  | nil =>
    by_cases heq : s.cpu.mem s.cpu.rdi = s.cpu.mem s.cpu.rsi
    · rcases heads_eq h1 h2 heq with ⟨hzero, -, rfl⟩ | ⟨c, l₁, l₂, -, -, hcons, -⟩
      · refine ⟨s.movAlRdi.movDlRsi.matched, Compared.first rfl rfl, fun fuel hfuel => ?_⟩
        obtain ⟨fuel, rfl⟩ : ∃ f, fuel = f + 1 := ⟨fuel - 1, by omega⟩
        rw [strncmpLoop_succ, if_neg (not_not_intro heq), if_pos hzero]
      · cases hcons
    · exact strncmpLoop_differ h1 h2 heq _ _ _ _
  | cons c text₁ ih =>
    by_cases heq : s.cpu.mem s.cpu.rdi = s.cpu.mem s.cpu.rsi
    · rcases heads_eq h1 h2 heq with ⟨-, hnil, -⟩ | ⟨d, l₁, l₂, hd, hd0, hcons, rfl⟩
      · cases hnil
      · cases hcons
        have hzero : ¬ s.cpu.mem s.cpu.rdi = 0 := hd ▸ hd0
        have hdec : (s.cpu.rcx - 1).toNat = n := by
          rw [BitVec.toNat_sub]
          have hlt := s.cpu.rcx.isLt
          simp only [BitVec.ofNat_eq_ofNat, BitVec.toNat_ofNat]
          omega
        cases n with
        | zero =>
          -- the count is exhausted at equal characters, whose difference is returned
          have hlast : s.cpu.rcx - 1 = 0 := BitVec.eq_of_toNat_eq hdec
          refine ⟨s.counted.strncmpNotMatched, Compared.first ?_ rfl, fun fuel hfuel => ?_⟩
          · rw [counted_strncmpNotMatched_rax, ← heq, BitVec.sub_self]
            rw [List.take_succ_cons, List.take_succ_cons, firstDifference, if_pos rfl]
            rfl
          · obtain ⟨fuel, rfl⟩ : ∃ f, fuel = f + 1 := ⟨fuel - 1, by omega⟩
            rw [strncmpLoop_succ, if_neg (not_not_intro heq), if_neg hzero,
              if_neg (not_not_intro hlast)]
        | succ n =>
          have hmore : s.cpu.rcx - 1 ≠ 0 := fun h => by
            rw [h] at hdec
            cases hdec
          obtain ⟨t, ht, hrun⟩ := ih (s := s.counted) h1.tail h2.tail hdec
          refine ⟨t, ?_, fun fuel hfuel => ?_⟩
          · simp only [List.length_cons, Nat.add_min_add_right]
            exact ht.cons rfl rfl rfl
          · obtain ⟨fuel, rfl⟩ : ∃ f, fuel = f + 1 := ⟨fuel - 1, by omega⟩
            rw [strncmpLoop_succ, if_neg (not_not_intro heq), if_neg hzero, if_pos hmore]
            exact hrun fuel (Nat.lt_of_succ_lt_succ hfuel)
    · exact strncmpLoop_differ h1 h2 heq _ _ _ _

end Reader

/-! ### What the calls return -/

/-- The call returns `r`, and every address it has read satisfies `p`. -/
def Returns (call : ℕ → Option (BitVec 32 × List (BitVec 64))) (r : BitVec 32)
    (p : BitVec 64 → Prop) : Prop :=
  ∃ reads k, (∀ fuel, k < fuel → call fuel = some (r, reads)) ∧ ∀ a ∈ reads, p a

section Calls

variable {s : Machine} {s1 s2 : BitVec 64}

/-- Nothing is read behind the terminators. -/
lemma strcmp_returns (h1 : CText s.mem s1 text₁) (h2 : CText s.mem s2 text₂) :
    Returns (strcmp s1 s2 s) ((firstDifference text₁ text₂).setWidth 32) fun a =>
      Among s1 (text₁.length + 1) a ∨ Among s2 (text₂.length + 1) a := by
  obtain ⟨t, ht, hrun⟩ :=
    Reader.archStrcmp_compared (s := ⟨{ s with rdi := s1, rsi := s2 }, []⟩) h1 h2
  refine ⟨t.reads, text₁.length, fun fuel hfuel => ?_, fun a ha => ?_⟩
  · rw [strcmp, hrun fuel hfuel, Option.map_some, ht.rax]
  · exact (ht.reads a ha).resolve_left List.not_mem_nil

/-- Nothing is read behind the terminators, nor behind the first `n` bytes. -/
lemma strncmp_returns (n : BitVec 64) (h1 : CText s.mem s1 text₁) (h2 : CText s.mem s2 text₂) :
    Returns (strncmp s1 s2 n s)
      ((firstDifference (text₁.take n.toNat) (text₂.take n.toNat)).setWidth 32) fun a =>
        Among s1 (min (text₁.length + 1) n.toNat) a ∨
          Among s2 (min (text₂.length + 1) n.toNat) a := by
  by_cases hn : n = 0
  · subst hn
    refine ⟨[], 0, fun fuel _ => ?_, fun a ha => absurd ha List.not_mem_nil⟩
    have hzero : (0 : BitVec 64).toNat = 0 := rfl
    simp only [strncmp, Reader.archStrncmp, BitVec.or_self, if_true, hzero, List.take_zero]
    rfl
  · have hpos : n.toNat ≠ 0 := fun h => hn (BitVec.eq_of_toNat_eq h)
    obtain ⟨k, hk⟩ := Nat.exists_eq_succ_of_ne_zero hpos
    obtain ⟨t, ht, hrun⟩ := Reader.strncmpLoop_compared
      (s := ⟨{ s with rdi := s1, rsi := s2, rdx := n, rcx := n }, []⟩) h1 h2 hk
    refine ⟨t.reads, text₁.length, fun fuel hfuel => ?_, fun a ha => ?_⟩
    · have hcall : Reader.archStrncmp ⟨{ s with rdi := s1, rsi := s2, rdx := n }, []⟩ fuel =
          Reader.strncmpLoop fuel ⟨{ s with rdi := s1, rsi := s2, rdx := n, rcx := n }, []⟩ := by
        simp only [Reader.archStrncmp, BitVec.or_self, hn, if_false]
      rw [strncmp, hcall, hrun fuel hfuel, Option.map_some, ht.rax, hk]
    · rw [hk, Nat.succ_min_succ, Nat.succ_min_succ]
      exact (ht.reads a ha).resolve_left List.not_mem_nil

/-- Both calls return the order of the texts, that of `n` bytes for `strncmp`, and read no
byte behind a terminator or behind the `n` bytes. -/
theorem strcmp_strncmp_order (n : BitVec 64) (h1 : CText s.mem s1 text₁)
    (h2 : CText s.mem s2 text₂) :
    ∃ r r' : BitVec 32,
      Returns (strcmp s1 s2 s) r
        (fun a => Among s1 (text₁.length + 1) a ∨ Among s2 (text₂.length + 1) a) ∧
      Returns (strncmp s1 s2 n s) r'
        (fun a => Among s1 (min (text₁.length + 1) n.toNat) a ∨
          Among s2 (min (text₂.length + 1) n.toNat) a) ∧
      Orders r text₁ text₂ ∧
      Orders r' (text₁.take n.toNat) (text₂.take n.toNat) ∧
      (n = 0 → r' = 0) ∧
      (min text₁.length text₂.length < n.toNat → r' = r) := by
  refine ⟨_, _, strcmp_returns h1 h2, strncmp_returns n h1 h2,
    firstDifference_orders h1.no_zero h2.no_zero, firstDifference_orders ?_ ?_, ?_, ?_⟩
  · exact fun h => h1.no_zero (List.mem_of_mem_take h)
  · exact fun h => h2.no_zero (List.mem_of_mem_take h)
  · rintro rfl
    rfl
  · intro hlt
    rw [firstDifference_take hlt]

end Calls

/-- Memory with the string `A` at `0x1000` and `AB` at `0x2000`. -/
def twoTexts : Machine where
  rax := 0
  rbx := 0
  rcx := 0
  rdx := 0
  rsi := 0
  rdi := 0
  r8 := 0
  r12 := 0
  rsp := 0
  df := false
  stack := []
  mem := fun a =>
    if a = 0x1000 then 0x41 else if a = 0x2000 then 0x41 else if a = 0x2001 then 0x42 else 0
  inp := fun _ => .const 0
  log := []

lemma twoTexts_fst : CText twoTexts.mem 0x1000 [0x41] := by decide

lemma twoTexts_snd : CText twoTexts.mem 0x2000 [0x41, 0x42] := by decide

/-- `A` is below `AB`, and equal to it in its first byte. -/
theorem strcmp_strncmp_order_prefix :
    ∃ r r' : BitVec 32,
      Returns (strcmp 0x1000 0x2000 twoTexts) r
        (fun a => Among 0x1000 2 a ∨ Among 0x2000 3 a) ∧
      Returns (strncmp 0x1000 0x2000 1 twoTexts) r'
        (fun a => Among 0x1000 1 a ∨ Among 0x2000 1 a) ∧
      r.toInt < 0 ∧ r' = 0 := by
  obtain ⟨r, r', hcmp, hncmp, hr, hr', -, -⟩ :=
    strcmp_strncmp_order 1 twoTexts_fst twoTexts_snd
  exact ⟨r, r', hcmp, hncmp, hr.neg.mpr (by decide), hr'.zero.mpr rfl⟩

end EvtDrivenOs.Strcmp
