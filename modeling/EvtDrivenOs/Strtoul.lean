/-
The conversion of hexadecimal numerals, `strtoul` of the x86-64 `std.c`.

A pointer into the string is the rest of it from there on; behind the last character comes
the NUL.  `strtoul` consumes `0x` before it has seen a digit, so a bare `0x` counts as
a numeral, and in `0xg` the end is behind the `x` although only the `0` is a numeral.
`strtoul_iff` says that in all other cases it reads the longest numeral at the start.
-/
import Mathlib.Tactic.Ring
import Mathlib.Tactic.SplitIfs

namespace EvtDrivenOs.Strtoul

/-! ### The function -/

/-- The character at a pointer. -/
def deref (s : List UInt8) : UInt8 := s.headD 0

/-- The `digit` of a character, `none` when the loop is left. -/
def digitOf (c : UInt8) : Option ℕ :=
  if 0x30 ≤ c ∧ c ≤ 0x39 then some (c.toNat - 0x30)
  else if 0x61 ≤ c ∧ c ≤ 0x66 then some (c.toNat - 0x61 + 10)
  else if 0x41 ≤ c ∧ c ≤ 0x46 then some (c.toNat - 0x41 + 10)
  else none

/-- The loop, with the rest of the string and the value. -/
def digits : List UInt8 → UInt64 → List UInt8 × UInt64
  | [], d => ([], d)
  | c :: s, d =>
    if c = 0 then (c :: s, d)
    else match digitOf c with
      | none => (c :: s, d)
      | some digit => digits s (d <<< 4 + .ofNat digit)

/-- The start of the string is skipped: a zero, and the `x` of a mark. -/
def skipMark (s : List UInt8) : List UInt8 :=
  if deref s = 0x30 then
    let s := s.tail
    if deref s = 0x78 ∨ deref s = 0x58 then s.tail else s
  else s

/-- The result and what is in `*endptr` after the call.  For `endptr`, what is in `*endptr`
before, if there is one; pointers are `none` when they are null. -/
def strtoul (nptr : Option (List UInt8)) (endptr : Option (Option (List UInt8)))
    (base : BitVec 32) : UInt64 × Option (Option (List UInt8)) :=
  let endptr := endptr.map fun _ => nptr
  match nptr with
  | none => (0, endptr)
  | some s =>
    if base ≠ 16 then (0, endptr)
    else
      let r := digits (skipMark s) 0
      (r.2, endptr.map fun _ => some r.1)

/-! ### Numerals -/

/-- The hexadecimal digits with their values. -/
inductive HexDigit : UInt8 → ℕ → Prop
  | decimal {c : UInt8} (hlow : 0x30 ≤ c.toNat) (hhigh : c.toNat ≤ 0x39) :
      HexDigit c (c.toNat - 0x30)
  | lower {c : UInt8} (hlow : 0x61 ≤ c.toNat) (hhigh : c.toNat ≤ 0x66) :
      HexDigit c (c.toNat - 0x61 + 10)
  | upper {c : UInt8} (hlow : 0x41 ≤ c.toNat) (hhigh : c.toNat ≤ 0x46) :
      HexDigit c (c.toNat - 0x41 + 10)

/-- One or more digits, with their value. -/
inductive HexDigits : List UInt8 → ℕ → Prop
  | one {c : UInt8} {v : ℕ} (hc : HexDigit c v) : HexDigits [c] v
  | cons {c : UInt8} {v : ℕ} {s : List UInt8} {n : ℕ} (hc : HexDigit c v) (hs : HexDigits s n) :
      HexDigits (c :: s) (v * 16 ^ s.length + n)

/-- A numeral with its value: digits, behind an optional `0x` or `0X`. -/
inductive Numeral : List UInt8 → ℕ → Prop
  | plain {s : List UInt8} {n : ℕ} (hs : HexDigits s n) : Numeral s n
  | marked {x : UInt8} {s : List UInt8} {n : ℕ} (hx : x = 0x78 ∨ x = 0x58) (hs : HexDigits s n) :
      Numeral (0x30 :: x :: s) n

/-- The string goes on with something else than a digit. -/
def Stops (s : List UInt8) : Prop := ∀ v, ¬ HexDigit (deref s) v

/-- A `0x` or `0X` that no digit follows. -/
def BareMark (s : List UInt8) : Prop :=
  ∃ x rest, s = 0x30 :: x :: rest ∧ (x = 0x78 ∨ x = 0x58) ∧ Stops rest

variable {c : UInt8} {v n : ℕ} {s t rest : List UInt8}

lemma digitOf_eq_some : digitOf c = some v ↔ HexDigit c v := by
  simp only [digitOf, UInt8.le_iff_toNat_le]
  constructor
  · intro h
    split_ifs at h with h1 h2 h3
    · cases h
      exact .decimal h1.1 h1.2
    · cases h
      exact .lower h2.1 h2.2
    · cases h
      exact .upper h3.1 h3.2
  · rintro (⟨hlow, hhigh⟩ | ⟨hlow, hhigh⟩ | ⟨hlow, hhigh⟩)
    · exact if_pos ⟨hlow, hhigh⟩
    · rw [if_neg (fun h => absurd (h.2.trans' hlow) (by decide)), if_pos ⟨hlow, hhigh⟩]
    · rw [if_neg (fun h => absurd (h.2.trans' hlow) (by decide)),
        if_neg (fun h => absurd (h.1.trans hhigh) (by decide)), if_pos ⟨hlow, hhigh⟩]

lemma digitOf_eq_none : digitOf c = none ↔ ∀ v, ¬ HexDigit c v := by
  simp only [← digitOf_eq_some, Option.eq_none_iff_forall_ne_some, ne_eq]

lemma HexDigit.lt (h : HexDigit c v) : v < 16 := by
  cases h <;> omega

lemma HexDigit.ne_zero (h : HexDigit c v) : c ≠ 0 := by
  rintro rfl
  cases h <;> contradiction

/-- The character of the mark is no digit. -/
lemma not_hexDigit_mark {x : UInt8} (hx : x = 0x78 ∨ x = 0x58) (v : ℕ) : ¬ HexDigit x v := by
  intro h
  rcases hx with rfl | rfl <;> cases h <;> contradiction

lemma HexDigit.unique {w : ℕ} (h : HexDigit c v) (h' : HexDigit c w) : v = w := by
  rw [← digitOf_eq_some] at h h'
  exact Option.some.inj (h.symm.trans h')

lemma HexDigits.head (h : HexDigits (c :: s) n) : ∃ v, HexDigit c v := by
  cases h with
  | one hc => exact ⟨_, hc⟩
  | cons hc hs => exact ⟨_, hc⟩

lemma HexDigits.ne_nil (h : HexDigits s n) : s ≠ [] := by
  rintro rfl
  cases h

lemma HexDigits.unique {m : ℕ} (h : HexDigits s n) (h' : HexDigits s m) : n = m := by
  induction h generalizing m with
  | one hc =>
    cases h' with
    | one hc' => exact hc.unique hc'
    | cons hc' hs' => exact absurd rfl hs'.ne_nil
  | cons hc hs ih =>
    cases h' with
    | one hc' => exact absurd rfl hs.ne_nil
    | cons hc' hs' => rw [hc.unique hc', ih hs']

lemma Numeral.unique {m : ℕ} (h : Numeral s n) (h' : Numeral s m) : n = m := by
  cases h with
  | plain hs =>
    cases h' with
    | plain hs' => exact hs.unique hs'
    | marked hx hs' =>
      -- the mark would be among the digits
      cases hs with
      | cons hc hs =>
        obtain ⟨v, hv⟩ := hs.head
        exact absurd hv (not_hexDigit_mark hx v)
  | marked hx hs =>
    cases h' with
    | plain hs' =>
      cases hs' with
      | cons hc hs' =>
        obtain ⟨v, hv⟩ := hs'.head
        exact absurd hv (not_hexDigit_mark hx v)
    | marked hx' hs' => exact hs.unique hs'

/-! ### The loop -/

/-- The loop consumes the digits at the start of the string. -/
lemma digits_spec (s : List UInt8) (d : UInt64) :
    ∃ ds, s = ds ++ (digits s d).1 ∧ Stops (digits s d).1 ∧
      (ds = [] ∧ (digits s d).2 = d ∨ ∃ n, HexDigits ds n ∧
        (digits s d).2.toNat = (d.toNat * 16 ^ ds.length + n) % 2 ^ 64) := by
  induction s generalizing d with
  | nil => exact ⟨[], rfl, fun v hv => hv.ne_zero rfl, .inl ⟨rfl, rfl⟩⟩
  | cons c s ih =>
    rw [digits]
    by_cases hzero : c = 0
    · rw [if_pos hzero]
      exact ⟨[], rfl, fun v hv => hv.ne_zero hzero, .inl ⟨rfl, rfl⟩⟩
    rw [if_neg hzero]
    cases hc : digitOf c with
    | none => exact ⟨[], rfl, digitOf_eq_none.mp hc, .inl ⟨rfl, rfl⟩⟩
    | some v =>
      rw [digitOf_eq_some] at hc
      have hlt := hc.lt
      obtain ⟨ds, hs, hstop, hds⟩ := ih (d <<< 4 + .ofNat v)
      have hd : (d <<< 4 + .ofNat v).toNat = (d.toNat * 16 + v) % 2 ^ 64 := by
        simp [Nat.shiftLeft_eq]
      refine ⟨c :: ds, congrArg (c :: ·) hs, hstop, .inr ?_⟩
      rcases hds with ⟨rfl, hval⟩ | ⟨n, hn, hval⟩
      · exact ⟨v, .one hc, by rw [hval, hd, List.length_singleton, pow_one]⟩
      · refine ⟨_, .cons hc hn, ?_⟩
        rw [hval, hd, List.length_cons, pow_succ', ← Nat.add_assoc, Nat.add_mod,
          Nat.mod_mul_mod, ← Nat.add_mod]
        congr 2
        ring

/-! ### The longest numeral -/

/-- A numeral at the start of the string, the rest behind it, and no longer numeral there; or
no numeral there, and the whole string as the rest. -/
def LongestEnd (s rest : List UInt8) : Prop :=
  (∃ num n, s = num ++ rest ∧ Numeral num n ∧
      ∀ num' m, num' <+: s → Numeral num' m → num'.length ≤ num.length) ∨
    rest = s ∧ ∀ num m, num <+: s → ¬ Numeral num m

/-- What `strtoul` is to make of `s`: the value `d`, and `rest` behind the numeral. -/
structure Reads (s : List UInt8) (d : UInt64) (rest : List UInt8) : Prop where
  /-- The whole text is read just if it is a numeral. -/
  accepts : deref rest = 0 ↔ ∃ n, Numeral s n
  /-- The result is the number, if this fits. -/
  value : ∀ n, Numeral s n → n < 2 ^ 64 → d.toNat = n
  /-- What is left begins where the longest numeral ends. -/
  ends : LongestEnd s rest

/-- The start of `s` is scanned: `ds` are the digits up to `rest`, behind a mark if there is
one. -/
inductive Scanned : List UInt8 → List UInt8 → List UInt8 → Prop
  | plain {ds rest : List UInt8} (hstop : Stops rest)
      (hmark : ∀ x t, ds ++ rest = 0x30 :: x :: t → ¬ (x = 0x78 ∨ x = 0x58)) :
      Scanned (ds ++ rest) ds rest
  | marked {x : UInt8} {ds rest : List UInt8} (hstop : Stops rest) (hx : x = 0x78 ∨ x = 0x58) :
      Scanned (0x30 :: x :: (ds ++ rest)) ds rest

/-- Digits at the start of the string are among those up to `rest`. -/
lemma HexDigits.length_le {num ds : List UInt8} (h : HexDigits num n) (hstop : Stops rest)
    (hpre : num <+: ds ++ rest) : num.length ≤ ds.length := by
  induction h generalizing ds with
  | one hc =>
    cases ds with
    | nil =>
      obtain ⟨t, rfl⟩ := hpre
      exact absurd hc (hstop _)
    | cons d ds => exact Nat.succ_le_succ (Nat.zero_le _)
  | cons hc hs ih =>
    cases ds with
    | nil =>
      obtain ⟨t, rfl⟩ := hpre
      exact absurd hc (hstop _)
    | cons d ds => exact Nat.succ_le_succ (ih (List.cons_prefix_cons.mp hpre).2)

/-- No numeral at the start goes beyond `rest`. -/
lemma Scanned.length_le {num ds : List UInt8} (h : Scanned s ds rest) (hnum : Numeral num n)
    (hpre : num <+: s) : num.length + rest.length ≤ s.length := by
  cases h with
  | plain hstop hmark =>
    cases hnum with
    | plain hs =>
      have hle := hs.length_le hstop hpre
      rw [List.length_append]
      omega
    | marked hx hs =>
      obtain ⟨t, ht⟩ := hpre
      exact absurd hx (hmark _ _ ht.symm)
  | @marked x _ _ hstop hx =>
    simp only [List.length_cons, List.length_append]
    cases hnum with
    | plain hs =>
      -- only the zero in front of the mark
      have hzero : num <+: [0x30] ++ x :: (ds ++ rest) := hpre
      have hstop' : Stops (x :: (ds ++ rest)) := not_hexDigit_mark hx
      have hle := hs.length_le hstop' hzero
      rw [List.length_singleton] at hle
      omega
    | marked hx' hs =>
      have hpre' := (List.cons_prefix_cons.mp (List.cons_prefix_cons.mp hpre).2).2
      have hle := hs.length_le hstop hpre'
      simp only [List.length_cons]
      omega

lemma Scanned.numeral {ds : List UInt8} (h : Scanned s ds rest) (hds : HexDigits ds n) :
    ∃ num, s = num ++ rest ∧ Numeral num n := by
  cases h with
  | plain hstop hmark => exact ⟨ds, rfl, .plain hds⟩
  | marked hstop hx => exact ⟨_ :: _ :: ds, rfl, .marked hx hds⟩

lemma Numeral.ne_nil (h : Numeral s n) : s ≠ [] := by
  rintro rfl
  cases h with
  | plain hs => exact hs.ne_nil rfl

lemma deref_eq_zero (hnul : 0 ∉ s) : deref s = 0 ↔ s = [] := by
  cases s with
  | nil => simp [deref]
  | cons c s =>
    have hc := List.ne_of_not_mem_cons hnul
    simp [deref, hc.symm]

/-- With digits, the numeral in front of `rest` is the longest. -/
lemma Scanned.reads {ds : List UInt8} {d : UInt64} (h : Scanned s ds rest) (hnul : 0 ∉ s)
    (hds : HexDigits ds n) (hd : d.toNat = n % 2 ^ 64) : Reads s d rest := by
  obtain ⟨num, hs, hnum⟩ := h.numeral hds
  have hrest : 0 ∉ rest := fun h0 => hnul (hs ▸ List.mem_append_right num h0)
  -- what is a numeral leaves nothing behind it
  have hall : ∀ m, Numeral s m → rest = [] := by
    intro m hm
    have hle := h.length_le hm (List.prefix_refl s)
    exact List.eq_nil_of_length_eq_zero (by omega)
  refine ⟨?_, ?_, .inl ⟨num, n, hs, hnum, ?_⟩⟩
  · rw [deref_eq_zero hrest]
    constructor
    · rintro rfl
      exact ⟨n, by rwa [hs, List.append_nil]⟩
    · rintro ⟨m, hm⟩
      exact hall m hm
  · intro m hm hlt
    rw [hall m hm, List.append_nil] at hs
    rw [hd, hnum.unique (hs ▸ hm), Nat.mod_eq_of_lt hlt]
  · intro num' m hpre hm
    have hle := h.length_le hm hpre
    have hlen := congrArg List.length hs
    rw [List.length_append] at hlen
    omega

lemma Scanned.not_bareMark {ds : List UInt8} (h : Scanned s ds rest) (hds : HexDigits ds n) :
    ¬ BareMark s := by
  rintro ⟨x, t, hs, hx, hstop⟩
  cases h with
  | plain hstop' hmark => exact hmark x t hs hx
  | marked hstop' hx' =>
    cases hs
    -- the digits would begin behind the mark
    cases ds with
    | nil => exact hds.ne_nil rfl
    | cons d ds =>
      obtain ⟨v, hv⟩ := hds.head
      exact hstop v hv

/-- With no digits, there is no numeral in front of `rest`, unless it is the zero of a bare
mark. -/
lemma Scanned.reads_nil {d : UInt64} (h : Scanned s [] rest) (hne : s ≠ []) (hnul : 0 ∉ s) :
    Reads s d rest ↔ ¬ BareMark s := by
  cases h with
  | plain hstop hmark =>
    have hscan : Scanned ([] ++ rest) [] rest := .plain hstop hmark
    rw [List.nil_append] at hne hnul hmark hscan ⊢
    have hnone : ∀ num m, num <+: rest → ¬ Numeral num m := by
      intro num m hpre hm
      have hle := hscan.length_le hm hpre
      exact hm.ne_nil (List.eq_nil_of_length_eq_zero (by omega))
    refine iff_of_true ⟨?_, fun m hm => ?_, .inr ⟨rfl, hnone⟩⟩ ?_
    · rw [deref_eq_zero hnul]
      exact iff_of_false hne fun h => h.elim fun m hm => hnone _ m (List.prefix_refl _) hm
    · exact absurd hm (hnone _ m (List.prefix_refl _))
    · rintro ⟨x, t, rfl, hx, -⟩
      exact hmark x t rfl hx
  | @marked x _ _ hstop hx =>
    refine iff_of_false ?_ (not_not_intro ⟨x, rest, rfl, hx, hstop⟩)
    rintro ⟨-, -, ⟨num, n, hs, hnum, -⟩ | ⟨hs, -⟩⟩
    · -- the mark itself would be the numeral
      have hmark : [0x30, x] ++ rest = num ++ rest := hs
      rw [← List.append_cancel_right hmark] at hnum
      cases hnum with
      | plain hs =>
        cases hs with
        | cons hc hs =>
          obtain ⟨v, hv⟩ := hs.head
          exact not_hexDigit_mark hx v hv
      | marked hx hs => exact hs.ne_nil rfl
    · have hlen := congrArg List.length hs
      simp only [List.nil_append, List.length_cons] at hlen
      omega

/-! ### The conversion -/

/-- The digits behind what is skipped, with the zero if it is not part of a mark. -/
lemma scanned_skipMark (s : List UInt8) :
    ∃ ds rest d, digits (skipMark s) 0 = (rest, d) ∧ Scanned s ds rest ∧
      (ds = [] ∨ ∃ n, HexDigits ds n ∧ d.toNat = n % 2 ^ 64) := by
  have hzero : HexDigit 0x30 0 := .decimal (Nat.le_refl 0x30) (by decide)
  obtain ⟨ds, hs, hstop, hds⟩ := digits_spec (skipMark s) 0
  rw [UInt64.toNat_zero, Nat.zero_mul] at hds
  simp only [Nat.zero_add] at hds
  generalize hr : digits (skipMark s) 0 = r at hs hstop hds
  obtain ⟨rest, d⟩ := r
  dsimp only at hs hstop hds
  by_cases hlead : deref s = 0x30
  · obtain ⟨t, rfl⟩ : ∃ t, s = 0x30 :: t := by
      cases s with
      | nil => cases hlead
      | cons c t => exact ⟨t, congrArg (· :: t) hlead⟩
    by_cases hmark : deref t = 0x78 ∨ deref t = 0x58
    · obtain ⟨x, t, rfl⟩ : ∃ x t', t = x :: t' := by
        cases t with
        | nil => rcases hmark with h | h <;> cases h
        | cons x t => exact ⟨x, t, rfl⟩
      have hskip : skipMark (0x30 :: x :: t) = t := by
        rw [skipMark, if_pos hlead]
        exact if_pos hmark
      rw [hskip] at hs
      subst hs
      exact ⟨ds, rest, d, rfl, .marked hstop hmark, hds.imp_left And.left⟩
    · have hskip : skipMark (0x30 :: t) = t := by
        rw [skipMark, if_pos hlead]
        exact if_neg hmark
      rw [hskip] at hs
      subst hs
      -- the zero is the first digit
      refine ⟨0x30 :: ds, rest, d, rfl, @Scanned.plain (0x30 :: ds) rest hstop ?_, .inr ?_⟩
      · intro x t ht
        rw [List.cons_append, List.cons_inj_right] at ht
        rwa [ht] at hmark
      · rcases hds with ⟨rfl, hd⟩ | ⟨n, hn, hd⟩
        · exact ⟨0, .one hzero, by rw [hd]; rfl⟩
        · exact ⟨_, .cons hzero hn, by rw [hd, Nat.zero_mul, Nat.zero_add]⟩
  · have hskip : skipMark s = s := if_neg hlead
    rw [hskip] at hs
    subst hs
    refine ⟨ds, rest, d, rfl, .plain hstop ?_, hds.imp_left And.left⟩
    intro x t ht
    exact absurd (congrArg deref ht) hlead

/-- `strtoul` reads a string in base 16 as it is to do, just if the string does not start with
a bare `0x`. -/
theorem strtoul_iff {s : List UInt8} (hne : s ≠ []) (hnul : 0 ∉ s)
    (old : Option (List UInt8)) :
    (∃ d rest, strtoul (some s) (some old) 16 = (d, some (some rest)) ∧ Reads s d rest) ↔
      ¬ BareMark s := by
  obtain ⟨ds, rest, d, hdigits, hscan, hds⟩ := scanned_skipMark s
  have hcall : strtoul (some s) (some old) 16 = (d, some (some rest)) := by
    simp [strtoul, hdigits]
  have hreads : (∃ d' rest', strtoul (some s) (some old) 16 = (d', some (some rest')) ∧
      Reads s d' rest') ↔ Reads s d rest := by
    rw [hcall]
    simp
  rw [hreads]
  rcases hds with rfl | ⟨n, hn, hd⟩
  · exact hscan.reads_nil hne hnul
  · exact iff_of_true (hscan.reads hnul hn hd) (hscan.not_bareMark hn)

/-- `0x1F` -/
theorem strtoul_marked :
    ∃ d rest, strtoul (some [0x30, 0x78, 0x31, 0x46]) (some none) 16 = (d, some (some rest)) ∧
      Reads [0x30, 0x78, 0x31, 0x46] d rest := by
  refine (strtoul_iff (by decide) (by decide) none).mpr ?_
  rintro ⟨x, rest, hs, hx, hstop⟩
  cases hs
  exact hstop 1 (.decimal (by decide) (by decide))

/-- Of `0x` everything is consumed, as if it were a numeral. -/
theorem strtoul_bare :
    strtoul (some [0x30, 0x78]) (some none) 16 = (0, some (some [])) ∧
      ¬ Reads [0x30, 0x78] 0 [] := by
  refine ⟨by decide, fun hreads => ?_⟩
  obtain ⟨n, hn⟩ := hreads.accepts.mp rfl
  cases hn with
  | plain hs =>
    cases hs with
    | cons hc hs =>
      obtain ⟨v, hv⟩ := hs.head
      exact not_hexDigit_mark (.inl rfl) v hv
  | marked hx hs => exact hs.ne_nil rfl

end EvtDrivenOs.Strtoul
