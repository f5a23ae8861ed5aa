/-
The string copies of the x86-64 build, `memory.asm`, over `lodsb` and `stosb`.

The copies write what they should.  But `lodsb` loads the characters into the low byte of
`rax`, and `_arch_strcpy` and `_arch_strncpy` keep the destination in `rax` while they do
so: what they return is the destination with its low byte replaced by the last byte that
was loaded.  `_arch_strcat` and `_arch_memset` save it elsewhere.
-/
import EvtDrivenOs.Lib.X64Strings
import EvtDrivenOs.Memory

namespace EvtDrivenOs.Strings

open EvtDrivenOs.Lib.X64
open EvtDrivenOs.Memory (archMemcpy copyEntry archMemcpy_eq)

/-! ### The routines -/

/-- The loop of `_arch_strcpy` and `_arch_strcat`. -/
def copyLoop : ℕ → Machine → Option Machine
  | 0, _ => none
  | fuel + 1, s =>
    let s := s.lodsb.stosb
    if s.al ||| s.al ≠ 0 then copyLoop fuel s else some s

/-- `rdi` has the destination and `rsi` the source. -/
def archStrcpy (fuel : ℕ) (s : Machine) : Option Machine :=
  let s := s.cld
  let s := { s with rax := s.rdi }
  copyLoop fuel s

/-- `.strn_cpy_loop` -/
def strnCpyLoop : ℕ → Machine → Option Machine
  | 0, _ => none
  | fuel + 1, s =>
    let s := s.lodsb.stosb
    let s := s.decRcx
    if s.rcx = 0 then some s
    else if s.al ||| s.al ≠ 0 then strnCpyLoop fuel s
    else some s.repStosb

/-- `rdi` has the destination, `rsi` the source and `rdx` the number of bytes. -/
def archStrncpy (fuel : ℕ) (s : Machine) : Option Machine :=
  let s := s.cld
  let s := { s with rax := s.rdi }
  let s := { s with rcx := s.rdx }
  if s.rcx ||| s.rcx ≠ 0 then strnCpyLoop fuel s else some s

/-- The instructions in front of `.strcat_loop`. -/
def strcatEntry (s : Machine) : Machine :=
  let s := s.push s.rbx
  let s := s.cld
  let s := { s with rbx := s.rdi }
  let s := { s with rax := 0 }
  let s := { s with rcx := -1 }
  let s := s.repnzScasb
  { s with rdi := s.rdi - 1 }

/-- `rdi` has the destination and `rsi` the source. -/
def archStrcat (fuel : ℕ) (s : Machine) : Option Machine :=
  (copyLoop fuel (strcatEntry s)).map fun (s : Machine) =>
    let s := { s with rax := s.rbx }
    s.popRbx

/-- `rdi` has the address, `rsi` the character and `rdx` the number of bytes. -/
def archMemset (s : Machine) : Machine :=
  let s := s.pushfq
  let s := s.push s.rcx
  let s := s.push s.rdi
  let s := { s with rax := s.rsi }
  let s := { s with rax := s.rax &&& 0xFF }
  let s := s.cld
  let s := { s with rcx := s.rdx }
  let s := s.repStosb
  let s := s.popRdi
  let s := { s with rax := s.rdi }
  let s := s.popRcx
  s.popfq

/-! ### The loops -/

variable {s t : Machine} {fuel : ℕ}

lemma Loading.al {k : ℕ} (h : Loading s (k + 1) t) : t.al = s.loaded k := by
  rw [Machine.al, h.rax]
  exact low8_setLow8 _ _

/-- One pass of the loop; the `or` only sets the zero flag. -/
lemma copyLoop_succ (fuel : ℕ) (s : Machine) :
    copyLoop (fuel + 1) s =
      if s.lodsb.stosb.al = 0 then some s.lodsb.stosb else copyLoop fuel s.lodsb.stosb := by
  rw [copyLoop]
  simp only [BitVec.or_self, ne_eq, ite_not]

/-- The loop copies up to the first zero that it loads, that of pass `k`. -/
lemma copyLoop_eq {k : ℕ} (hdf : s.df = false) (hk : k < 2 ^ 64)
    (hne : ∀ i < k, s.loaded i ≠ 0) (hzero : s.loaded k = 0) :
    ∃ t, Loading s (k + 1) t ∧ ∀ fuel, copyLoop fuel s = if k < fuel then some t else none := by
  -- with `j` passes done and `i` to come before the last
  suffices h : ∀ i j t, j + i = k → Loading s j t →
      ∃ u, Loading s (k + 1) u ∧ ∀ fuel, copyLoop fuel t = if i < fuel then some u else none by
    exact h k 0 s (Nat.zero_add k) (Loading.refl s)
  intro i
  induction i with
  | zero =>
    rintro j t rfl hload
    have hnext := hload.succ hdf hk t.lodsb.stosb.rcx
    refine ⟨t.lodsb.stosb, hnext, fun fuel => ?_⟩
    cases fuel with
    | zero => rfl
    | succ fuel =>
      rw [copyLoop_succ, if_pos ((Loading.al hnext).trans hzero), if_pos (Nat.succ_pos _)]
  | succ i ih =>
    intro j t hj hload
    have hnext := hload.succ hdf (by omega) t.lodsb.stosb.rcx
    obtain ⟨u, hu, hrun⟩ := ih (j + 1) t.lodsb.stosb (by omega) hnext
    refine ⟨u, hu, fun fuel => ?_⟩
    cases fuel with
    | zero => rfl
    | succ fuel =>
      have hal : ¬ t.lodsb.stosb.al = 0 := by
        rw [Loading.al hnext]
        exact hne j (by omega)
      rw [copyLoop_succ, if_neg hal, hrun]
      simp only [Nat.succ_lt_succ_iff]

/-- However many passes there are, the last one loads the zero. -/
lemma copyLoop_regs (h : copyLoop fuel s = some t) :
    t.rax = setLow8 s.rax 0 ∧ t.rbx = s.rbx := by
  induction fuel generalizing s with
  | zero => cases h
  | succ fuel ih =>
    rw [copyLoop_succ] at h
    split_ifs at h with hal
    · cases h
      have hload : s.mem s.rsi = 0 := by
        rw [← hal]
        exact (low8_setLow8 _ _).symm
      exact ⟨congrArg (setLow8 s.rax) hload, rfl⟩
    · obtain ⟨hrax, hrbx⟩ := ih h
      exact ⟨hrax.trans (setLow8_setLow8 _ _ _), hrbx⟩

/-- When the destination starts inside the source, in front of its first zero, the loop has
only characters to load, which it has written itself. -/
lemma copyLoop_endless (hdf : s.df = false) (hgap : 0 < s.gap)
    (hne : ∀ i < s.gap, s.mem (s.rsi + BitVec.ofNat 64 i) ≠ 0) (fuel : ℕ) :
    copyLoop fuel s = none := by
  induction fuel generalizing s with
  | zero => rfl
  | succ fuel ih =>
    have hstep : s.byteStep = 1 := by
      rw [Machine.byteStep, hdf]
      rfl
    have hfirst : s.mem s.rsi ≠ 0 := by
      have h0 := hne 0 hgap
      rwa [show s.rsi + BitVec.ofNat 64 0 = s.rsi from BitVec.add_zero s.rsi] at h0
    have hal : s.lodsb.stosb.al = s.mem s.rsi := low8_setLow8 _ _
    have hrsi : s.lodsb.stosb.rsi = s.rsi + 1 := congrArg (s.rsi + ·) hstep
    have hrdi : s.lodsb.stosb.rdi = s.rdi + 1 := congrArg (s.rdi + ·) hstep
    have hmem : s.lodsb.stosb.mem = Function.update s.mem s.rdi (s.mem s.rsi) :=
      congrArg (Function.update s.mem s.rdi) hal
    have hgap' : s.lodsb.stosb.gap = s.gap := by
      rw [Machine.gap, hrsi, hrdi, add_sub_add_right_eq_sub, Machine.gap]
    rw [copyLoop_succ, if_neg (by rwa [hal])]
    apply ih (s := s.lodsb.stosb) hdf (by rwa [hgap'])
    rw [hgap', hmem, hrsi]
    intro i hi
    have hlast : s.rdi = s.rsi + BitVec.ofNat 64 s.gap := by
      simpa using Copying.rdi_add s 0
    rw [add_ofNat_succ]
    rcases Nat.lt_or_ge (i + 1) s.gap with hlt | hge
    · have hlt64 : s.gap < 2 ^ 64 := (s.rdi - s.rsi).isLt
      rw [Function.update_of_ne (by rw [hlast]; exact add_ofNat_ne s.rsi hlt (by omega))]
      exact hne (i + 1) hlt
    · -- the byte in front of the destination's next one is the one just written
      rw [show i + 1 = s.gap by omega, ← hlast, Function.update_self]
      exact hfirst

lemma strnCpyLoop_succ (fuel : ℕ) (s : Machine) :
    strnCpyLoop (fuel + 1) s =
      if s.lodsb.stosb.decRcx.rcx = 0 then some s.lodsb.stosb.decRcx
      else if s.lodsb.stosb.decRcx.al = 0 then some s.lodsb.stosb.decRcx.repStosb
      else strnCpyLoop fuel s.lodsb.stosb.decRcx := by
  rw [strnCpyLoop]
  simp only [BitVec.or_self, ne_eq, ite_not]

lemma repStosb_of_rcx (h : s.rcx = 0) : s.repStosb = s := by
  rw [Machine.repStosb, h]
  rfl

/-- What is left in a counter of `n`. -/
lemma sub_ofNat_eq_zero {n : BitVec 64} {j : ℕ} (hj : j ≤ n.toNat) :
    n - BitVec.ofNat 64 j = 0 ↔ j = n.toNat := by
  have hlt := n.isLt
  constructor
  · intro h
    have hn := congrArg BitVec.toNat (sub_eq_zero.mp h)
    rw [BitVec.toNat_ofNat, Nat.mod_eq_of_lt (by omega)] at hn
    exact hn.symm
  · rintro rfl
    rw [BitVec.ofNat_toNat, BitVec.setWidth_eq, sub_self]

/-- The loop of `_arch_strncpy` ends with the pass `k` that copies the last byte or the first
zero; in the latter case the rest is filled. -/
lemma strnCpyLoop_eq {k : ℕ} (hdf : s.df = false) (hk : k < s.rcx.toNat)
    (hne : ∀ i < k, s.loaded i ≠ 0) (hstop : k + 1 = s.rcx.toNat ∨ s.loaded k = 0) :
    ∃ t, Loading s (k + 1) t ∧ t.rcx = s.rcx - BitVec.ofNat 64 (k + 1) ∧
      ∀ fuel, strnCpyLoop fuel s = if k < fuel then some t.repStosb else none := by
  have hlt := s.rcx.isLt
  have hpass : ∀ j t, j ≤ k → Loading s j t → t.rcx = s.rcx - BitVec.ofNat 64 j →
      Loading s (j + 1) t.lodsb.stosb.decRcx ∧
        t.lodsb.stosb.decRcx.rcx = s.rcx - BitVec.ofNat 64 (j + 1) := by
    intro j t hj hload hrcx
    refine ⟨hload.succ hdf (by omega) _, ?_⟩
    rw [BitVec.ofNat_add, ← sub_sub, ← hrcx]
    rfl
  -- with `j` passes done and `i` to come before the last
  suffices h : ∀ i j t, j + i = k → Loading s j t → t.rcx = s.rcx - BitVec.ofNat 64 j →
      ∃ u, Loading s (k + 1) u ∧ u.rcx = s.rcx - BitVec.ofNat 64 (k + 1) ∧
        ∀ fuel, strnCpyLoop fuel t = if i < fuel then some u.repStosb else none by
    exact h k 0 s (Nat.zero_add k) (Loading.refl s) (BitVec.sub_zero s.rcx).symm
  intro i
  induction i with
  | zero =>
    rintro j t rfl hload hrcx
    obtain ⟨hnext, hrcx'⟩ := hpass j t (Nat.le_refl j) hload hrcx
    refine ⟨t.lodsb.stosb.decRcx, hnext, hrcx', fun fuel => ?_⟩
    cases fuel with
    | zero => rfl
    | succ fuel =>
      rw [strnCpyLoop_succ, if_pos (Nat.succ_pos _)]
      by_cases hlast : t.lodsb.stosb.decRcx.rcx = 0
      · rw [if_pos hlast, repStosb_of_rcx hlast]
      · have hzero : s.loaded j = 0 := by
          refine hstop.resolve_left fun hn => hlast ?_
          rw [hrcx', sub_ofNat_eq_zero (by omega)]
          exact hn
        rw [if_neg hlast, if_pos ((Loading.al hnext).trans hzero)]
  | succ i ih =>
    intro j t hj hload hrcx
    obtain ⟨hnext, hrcx'⟩ := hpass j t (by omega) hload hrcx
    obtain ⟨u, hu, hurcx, hrun⟩ := ih (j + 1) t.lodsb.stosb.decRcx (by omega) hnext hrcx'
    refine ⟨u, hu, hurcx, fun fuel => ?_⟩
    cases fuel with
    | zero => rfl
    | succ fuel =>
      have hmore : ¬ t.lodsb.stosb.decRcx.rcx = 0 := by
        rw [hrcx', sub_ofNat_eq_zero (by omega)]
        omega
      have hal : ¬ t.lodsb.stosb.decRcx.al = 0 := by
        rw [Loading.al hnext]
        exact hne j (by omega)
      rw [strnCpyLoop_succ, if_neg hmore, if_neg hal, hrun]
      simp only [Nat.succ_lt_succ_iff]

/-- The pass with which it ends. -/
lemma exists_stop (s : Machine) {n : ℕ} (hn : 0 < n) :
    ∃ k < n, (∀ i < k, s.loaded i ≠ 0) ∧ (k + 1 = n ∨ s.loaded k = 0) := by
  have hex : ∃ k, k + 1 = n ∨ s.loaded k = 0 := ⟨n - 1, .inl (by omega)⟩
  refine ⟨Nat.find hex, ?_, fun i hi hzero => ?_, Nat.find_spec hex⟩
  · have hle := Nat.find_min' hex (m := n - 1) (.inl (by omega))
    omega
  · exact Nat.find_min hex hi (.inr hzero)

/-! ### The result -/

/-- The routine returns its destination whenever it returns. -/
def ReturnsDest (f : ℕ → Machine → Option Machine) (s : Machine) : Prop :=
  ∀ fuel t, f fuel s = some t → t.rax = s.rdi

/-- The destination starts inside the text at the source. -/
def Inside (s : Machine) (text : List (BitVec 8)) : Prop := 0 < s.gap ∧ s.gap ≤ text.length

/-- The last byte that `_arch_strncpy` loads is `b`. -/
def LastLoaded (s : Machine) (b : BitVec 8) : Prop :=
  ∃ k < s.rdx.toNat, (∀ i < k, s.loaded i ≠ 0) ∧ (k + 1 = s.rdx.toNat ∨ s.loaded k = 0) ∧
    b = s.loaded k

/-- The state in which the loop of `_arch_strcpy` is entered. -/
def strcpyEntry (s : Machine) : Machine := { s.cld with rax := s.rdi }

/-- The state in which that of `_arch_strncpy` is. -/
def strncpyEntry (s : Machine) : Machine := { s.cld with rax := s.rdi, rcx := s.rdx }

variable {text : List (BitVec 8)}

/-- Each byte of a text is loaded as it was, unless the destination starts inside the text. -/
lemma loaded_of_not_inside (h : ¬ Inside s text) {i : ℕ} (hi : i ≤ text.length) :
    s.loaded i = s.mem (s.rsi + BitVec.ofNat 64 i) := by
  have hmod : i % s.gap = i := by
    rcases Nat.eq_zero_or_pos s.gap with hzero | hpos
    · rw [hzero, Nat.mod_zero]
    · have hlt : text.length < s.gap := Nat.not_le.mp fun hle => h ⟨hpos, hle⟩
      exact Nat.mod_eq_of_lt (by omega)
  rw [Machine.loaded, hmod]

/-- `_arch_strcpy` copies the text and its terminator. -/
lemma archStrcpy_eq (hsrc : CText s.mem s.rsi text) (h : ¬ Inside s text) :
    ∃ t, Loading (strcpyEntry s) (text.length + 1) t ∧
      ∀ fuel, archStrcpy fuel s = if text.length < fuel then some t else none := by
  refine copyLoop_eq (s := strcpyEntry s) rfl hsrc.length_lt (fun i hi => ?_) ?_
  · show s.loaded i ≠ 0
    rw [loaded_of_not_inside h hi.le]
    exact hsrc.ne_zero hi
  · show s.loaded text.length = 0
    rw [loaded_of_not_inside h (Nat.le_refl _)]
    exact hsrc.terminator

lemma archStrcpy_returnsDest_iff (hsrc : CText s.mem s.rsi text) :
    ReturnsDest archStrcpy s ↔ s.rdi.setWidth 8 = 0#8 ∨ Inside s text := by
  constructor
  · intro hret
    by_contra hnot
    obtain ⟨hlow, hinside⟩ := not_or.mp hnot
    obtain ⟨t, hload, hrun⟩ := archStrcpy_eq hsrc hinside
    have hrax := hret (text.length + 1) t (by rw [hrun, if_pos (Nat.lt_succ_self _)])
    obtain ⟨hzero, -⟩ := copyLoop_regs (s := strcpyEntry s) ((hrun (text.length + 1)).trans
      (if_pos (Nat.lt_succ_self _)))
    exact hlow (setLow8_eq_self_iff.mp (hzero.symm.trans hrax))
  · rintro (hlow | ⟨hpos, hle⟩) fuel t hrun
    · obtain ⟨hzero, -⟩ := copyLoop_regs (s := strcpyEntry s) hrun
      exact hzero.trans (setLow8_eq_self_iff.mpr hlow)
    · have hnone : copyLoop fuel (strcpyEntry s) = none :=
        copyLoop_endless (s := strcpyEntry s) rfl hpos
          (fun i hi => hsrc.ne_zero (hi.trans_le hle)) fuel
      exact absurd (hnone.symm.trans hrun) (by simp)

/-- `_arch_strncpy` copies up to the last byte it loads, and fills the rest. -/
lemma archStrncpy_eq {k : ℕ} (hk : k < s.rdx.toNat) (hne : ∀ i < k, s.loaded i ≠ 0)
    (hstop : k + 1 = s.rdx.toNat ∨ s.loaded k = 0) :
    ∃ t, Loading (strncpyEntry s) (k + 1) t ∧ t.rcx = s.rdx - BitVec.ofNat 64 (k + 1) ∧
      ∀ fuel, archStrncpy fuel s = if k < fuel then some t.repStosb else none := by
  obtain ⟨t, hload, hrcx, hrun⟩ := strnCpyLoop_eq (s := strncpyEntry s) rfl hk hne hstop
  refine ⟨t, hload, hrcx, fun fuel => ?_⟩
  have hn : s.rdx ≠ 0 := by
    rintro h0
    rw [h0] at hk
    exact absurd hk (Nat.not_lt_zero k)
  rw [← hrun, archStrncpy]
  simp only [BitVec.or_self]
  exact if_pos hn

lemma archStrncpy_zero (h : s.rdx = 0) (fuel : ℕ) :
    archStrncpy fuel s = some (strncpyEntry s) := by
  rw [archStrncpy]
  simp only [BitVec.or_self]
  exact if_neg (not_not_intro h)

lemma Storing.rax {k : ℕ} (h : Storing s k t) : t.rax = s.rax := by
  rw [h.regs]

lemma archStrncpy_returnsDest_iff (s : Machine) :
    ReturnsDest archStrncpy s ↔ s.rdx = 0 ∨ LastLoaded s (s.rdi.setWidth 8) := by
  by_cases hn : s.rdx = 0
  · refine iff_of_true (fun fuel t hrun => ?_) (.inl hn)
    rw [archStrncpy_zero hn] at hrun
    cases hrun
    rfl
  have hpos : 0 < s.rdx.toNat := Nat.pos_of_ne_zero fun h => hn (BitVec.eq_of_toNat_eq h)
  obtain ⟨k, hk, hne, hstop⟩ := exists_stop s hpos
  obtain ⟨t, hload, hrcx, hrun⟩ := archStrncpy_eq hk hne hstop
  have hrax : t.repStosb.rax = setLow8 s.rdi (s.loaded k) := by
    rw [Storing.rax (Storing.repStosb hload.df), hload.rax]
    rfl
  constructor
  · intro hret
    have hdest := hret (k + 1) _ (by rw [hrun, if_pos (Nat.lt_succ_self k)])
    exact .inr ⟨k, hk, hne, hstop, setLow8_eq_self_iff.mp (hrax.symm.trans hdest)⟩
  · rintro (hn' | ⟨j, hj, hne', hstop', hlow⟩) fuel u hrun'
    · exact absurd hn' hn
    · have hjk : j = k := by
        rcases Nat.lt_trichotomy j k with hlt | heq | hgt
        · rcases hstop' with hlast | hzero
          · omega
          · exact absurd hzero (hne j hlt)
        · exact heq
        · rcases hstop with hlast | hzero
          · omega
          · exact absurd hzero (hne' k hgt)
      subst hjk
      rw [hrun] at hrun'
      split_ifs at hrun' with hfuel
      cases hrun'
      rw [hrax]
      exact setLow8_eq_self_iff.mpr hlow

lemma scasbs_rbx (n : ℕ) (s : Machine) : (Machine.scasbs n s).rbx = s.rbx := by
  induction n generalizing s with
  | zero => rfl
  | succ n ih =>
    rw [Machine.scasbs]
    split
    · rfl
    · exact ih _

lemma archStrcat_returnsDest (s : Machine) : ReturnsDest archStrcat s := by
  intro fuel t hrun
  obtain ⟨u, hloop, rfl⟩ := Option.map_eq_some_iff.mp hrun
  obtain ⟨-, hrbx⟩ := copyLoop_regs hloop
  exact hrbx.trans (scasbs_rbx _ _)

lemma archMemcpy_returnsDest (s : Machine) : ReturnsDest (fun _ => archMemcpy) s := by
  intro fuel t hrun
  have hcopy := Copying.repMovsb (s := copyEntry s) rfl
  have hcall : archMemcpy s = some t := hrun
  rw [archMemcpy_eq] at hcall
  cases hcall
  show (copyEntry s).repMovsb.rax = s.rdi
  rw [hcopy.regs]
  rfl

/-- The state in which `rep stosb` of `_arch_memset` starts. -/
def memsetEntry (s : Machine) : Machine :=
  { ((s.pushfq.push s.rcx).push s.rdi).cld with rax := s.rsi &&& 0xFF, rcx := s.rdx }

/-- `_arch_memset` fills the memory and restores what it has pushed. -/
lemma archMemset_eq (s : Machine) :
    archMemset s = { s with rax := s.rdi, mem := (memsetEntry s).repStosb.mem } := by
  have hstore := Storing.repStosb (s := memsetEntry s) rfl
  have hflags : s.flags.getLsbD 10 = s.df := s.getElem_flags
  show ((({ (memsetEntry s).repStosb.popRdi with
    rax := (memsetEntry s).repStosb.popRdi.rdi } : Machine).popRcx).popfq) = _
  rw [hstore.regs]
  simp [memsetEntry]

/-- The bytes that `_arch_memset` leaves. -/
lemma archMemset_bytes (s : Machine) :
    Bytes (archMemset s).mem s.rdi (List.replicate s.rdx.toNat (s.rsi.setWidth 8)) ∧
      ∀ a, (∀ i < s.rdx.toNat, a ≠ s.rdi + BitVec.ofNat 64 i) →
        (archMemset s).mem a = s.mem a := by
  have hstore := Storing.repStosb (s := memsetEntry s) rfl
  rw [archMemset_eq]
  refine ⟨fun i b hi => ?_, hstore.frame⟩
  rw [List.getElem?_replicate] at hi
  split_ifs at hi with hlt
  cases hi
  have hal : (memsetEntry s).al = s.rsi.setWidth 8 := by
    show (s.rsi &&& 0xFF).setWidth 8 = s.rsi.setWidth 8
    rw [BitVec.setWidth_and]
    exact BitVec.and_allOnes
  exact (hstore.stored i hlt).trans hal

/-- **Which copies return their destination.**  `_arch_strcpy` just if its low byte is zero, or
it is inside the source's text, so that the copy never ends; `_arch_strncpy` just if there is
nothing to copy or the last byte loaded happens to be the low byte; the others always. -/
theorem archCopies_returnsDest_iff (hsrc : CText s.mem s.rsi text) :
    (ReturnsDest archStrcpy s ↔ s.rdi.setWidth 8 = 0#8 ∨ Inside s text) ∧
      (ReturnsDest archStrncpy s ↔ s.rdx = 0 ∨ LastLoaded s (s.rdi.setWidth 8)) ∧
      ReturnsDest archStrcat s ∧ ReturnsDest (fun _ => archMemcpy) s ∧
      ReturnsDest (fun _ s => some (archMemset s)) s := by
  refine ⟨archStrcpy_returnsDest_iff hsrc, archStrncpy_returnsDest_iff s,
    archStrcat_returnsDest s, archMemcpy_returnsDest s, ?_⟩
  intro fuel t hrun
  have hcall : archMemset s = t := Option.some.inj hrun
  rw [← hcall, archMemset_eq]

/-- A processor with a destination and a source, and memory full of zeros. -/
def blankMachine (dest : BitVec 64) : Machine where
  rax := 0
  rbx := 0
  rcx := 0
  rdx := 0
  rsi := 0x2000
  rdi := dest
  r8 := 0
  r12 := 0
  rsp := 0
  df := false
  stack := []
  mem := fun _ => 0
  inp := fun _ => .const 0
  log := []

/-- The source is the letter `A`, the destination has the letter `B`, and there are three bytes
to copy. -/
def letterMachine : Machine :=
  { blankMachine 0x1000 with
    rdx := 3
    mem := fun a => if a = 0x2000 then 0x41 else if a = 0x1000 then 0x42 else 0 }

lemma letterMachine_source : CText letterMachine.mem letterMachine.rsi [0x41] := by decide

theorem archCopies_returnsDest_aligned : ReturnsDest archStrcpy letterMachine :=
  (archCopies_returnsDest_iff letterMachine_source).1.mpr (.inl (by decide))

/-- From `0x1001`, the copy of an empty string returns `0x1000`. -/
theorem archStrcpy_unaligned :
    (∃ t, archStrcpy 1 (blankMachine 0x1001) = some t ∧ t.rax = 0x1000) ∧
      ¬ ReturnsDest archStrcpy (blankMachine 0x1001) := by
  have hrun : ∃ t, archStrcpy 1 (blankMachine 0x1001) = some t ∧ t.rax = 0x1000 :=
    ⟨_, rfl, by decide⟩
  refine ⟨hrun, fun hret => ?_⟩
  obtain ⟨t, hcall, hrax⟩ := hrun
  have hdest := hret 1 t hcall
  rw [hrax] at hdest
  exact absurd hdest (by decide)

/-! ### The bytes written -/

/-- The `n` bytes from `a` on and the `m` from `b` on do not overlap. -/
def Apart (a : BitVec 64) (n : ℕ) (b : BitVec 64) (m : ℕ) : Prop :=
  ∀ i < n, ∀ j < m, a + BitVec.ofNat 64 i ≠ b + BitVec.ofNat 64 j

instance (a : BitVec 64) (n : ℕ) (b : BitVec 64) (m : ℕ) : Decidable (Apart a n b m) :=
  inferInstanceAs (Decidable (∀ i < n, _))

/-- The routine ends in the state `t`. -/
def Ends (f : ℕ → Machine → Option Machine) (s t : Machine) : Prop :=
  ∃ n, ∀ fuel, n ≤ fuel → f fuel s = some t

/-- Between `s` and `t` the bytes `bs` were written from `a` on, and no others. -/
structure Writes (s t : Machine) (a : BitVec 64) (bs : List (BitVec 8)) : Prop where
  bytes : Bytes t.mem a bs
  frame : ∀ x, (∀ i < bs.length, x ≠ a + BitVec.ofNat 64 i) → t.mem x = s.mem x

/-- What `strncpy` is to write: the characters that there is room for, and zeros. -/
def padded (n : ℕ) (text : List (BitVec 8)) : List (BitVec 8) :=
  text.take n ++ List.replicate (n - text.length) 0

lemma length_padded (n : ℕ) (text : List (BitVec 8)) : (padded n text).length = n := by
  rw [padded, List.length_append, List.length_take, List.length_replicate]
  omega

lemma padded_getElem? {n i : ℕ} {b : BitVec 8} (h : (padded n text)[i]? = some b) :
    i < n ∧ (text ++ [0])[min i text.length]? = some b := by
  have hlt := (List.getElem?_eq_some_iff.mp h).1
  rw [length_padded] at hlt
  refine ⟨hlt, ?_⟩
  rw [padded] at h
  rcases Nat.lt_or_ge i text.length with hi | hi
  · rw [List.getElem?_append_left (by rw [List.length_take]; omega),
      List.getElem?_take_of_lt hlt] at h
    rwa [Nat.min_eq_left hi.le, List.getElem?_append_left hi]
  · rw [List.getElem?_append_right (by rw [List.length_take]; omega), List.getElem?_replicate] at h
    split_ifs at h with hzero
    rw [Nat.min_eq_right hi, List.getElem?_append_right (Nat.le_refl _), Nat.sub_self]
    exact h

/-- What is apart from something is not the whole address space. -/
lemma Apart.lt {a b : BitVec 64} {n m : ℕ} (h : Apart a (n + 1) b m) : m < 2 ^ 64 := by
  by_contra hm
  refine h 0 (Nat.succ_pos n) (a - b).toNat (by omega) ?_
  rw [BitVec.ofNat_toNat, BitVec.setWidth_eq, add_sub_cancel]
  exact BitVec.add_zero a

/-- The destination is then not inside the source. -/
lemma Apart.loaded {n m i : ℕ} (h : Apart s.rsi n s.rdi (m + 1)) (hi : i < n) :
    s.loaded i = s.mem (s.rsi + BitVec.ofNat 64 i) := by
  refine Machine.loaded_of_disjoint hi fun j hj => ?_
  have hne := h j hj 0 (Nat.succ_pos m)
  rwa [show s.rdi + BitVec.ofNat 64 0 = s.rdi from BitVec.add_zero s.rdi] at hne

/-- A copy loop that has loaded the text and its terminator as they were. -/
lemma Loading.writes {e : Machine} (h : Loading e (text.length + 1) t) (hmem : e.mem = s.mem)
    (hsrc : CText s.mem e.rsi text) (happ : ∀ i ≤ text.length, e.loaded i =
      s.mem (e.rsi + BitVec.ofNat 64 i)) : Writes s t e.rdi (text ++ [0]) := by
  constructor
  · intro i b hi
    have hlt := (List.getElem?_eq_some_iff.mp hi).1
    rw [List.length_append, List.length_singleton] at hlt
    rw [h.value hlt, happ i (Nat.le_of_lt_succ hlt)]
    exact hsrc.bytes i b hi
  · intro x hx
    rw [List.length_append, List.length_singleton] at hx
    rw [h.frame hx, hmem]

/-- `_arch_strcpy` writes the source with its terminator. -/
lemma archStrcpy_writes (hsrc : CText s.mem s.rsi text)
    (happ : Apart s.rsi (text.length + 1) s.rdi (text.length + 1)) :
    ∃ t, Ends archStrcpy s t ∧ Writes s t s.rdi (text ++ [0]) := by
  have hload : ∀ i ≤ text.length, s.loaded i = s.mem (s.rsi + BitVec.ofNat 64 i) :=
    fun i hi => happ.loaded (Nat.lt_succ_of_le hi)
  have houtside : ¬ Inside s text := by
    rintro ⟨hpos, hle⟩
    apply happ s.gap (by omega) 0 (Nat.succ_pos _)
    rw [Copying.rdi_add s 0, Nat.zero_add]
  obtain ⟨t, ht, hrun⟩ := archStrcpy_eq hsrc houtside
  refine ⟨t, ⟨text.length + 1, fun fuel hfuel => ?_⟩, ?_⟩
  · rw [hrun, if_pos (Nat.lt_of_succ_le hfuel)]
  · exact Loading.writes (e := strcpyEntry s) ht rfl hsrc hload

/-- The copy of the characters up to the last one there is room for or the terminator, with as
many of the last byte behind it as are missing, is what `strncpy` is to write. -/
lemma Loading.writes_padded {e u : Machine} {n k : ℕ} (h : Loading e (k + 1) t)
    (hk : k = min n text.length) (hn : n < 2 ^ 64) (hmem : e.mem = s.mem)
    (hsrc : CText s.mem e.rsi text)
    (happ : ∀ i ≤ k, e.loaded i = s.mem (e.rsi + BitVec.ofNat 64 i))
    (hstore : Storing t (n - k) u) : Writes s u e.rdi (padded (n + 1) text) := by
  have hfill : ∀ j, t.rdi + BitVec.ofNat 64 j = e.rdi + BitVec.ofNat 64 (k + 1 + j) := by
    intro j
    rw [h.rdi, BitVec.ofNat_add (k + 1), ← add_assoc]
  constructor
  · intro i b hi
    obtain ⟨hlt, hb⟩ := padded_getElem? hi
    rcases Nat.lt_or_ge i (k + 1) with hik | hik
    · -- a byte that was copied
      have hkeep : u.mem (e.rdi + BitVec.ofNat 64 i) = t.mem (e.rdi + BitVec.ofNat 64 i) := by
        apply hstore.frame
        intro j hj
        rw [hfill]
        exact add_ofNat_ne e.rdi (by omega) (by omega)
      rw [hkeep, h.value hik, happ i (by omega)]
      rw [Nat.min_eq_left (by omega)] at hb
      exact hsrc.bytes i b hb
    · -- a zero of the filling
      have hlast : k = text.length := by omega
      obtain ⟨j, rfl⟩ : ∃ j, i = k + 1 + j := ⟨i - (k + 1), by omega⟩
      rw [← hfill, hstore.stored j (by omega), Loading.al h, happ k (Nat.le_refl k)]
      rw [Nat.min_eq_right (by omega), ← hlast] at hb
      exact hsrc.bytes k b hb
  · intro x hx
    rw [length_padded] at hx
    rw [hstore.frame x fun j hj => by rw [hfill]; exact hx _ (by omega),
      h.frame fun i hi => hx i (by omega), hmem]

/-- `_arch_strncpy` writes the source's characters that there is room for, and fills the rest
with zeros. -/
lemma archStrncpy_writes (hsrc : CText s.mem s.rsi text)
    (happ : Apart s.rsi (min s.rdx.toNat (text.length + 1)) s.rdi s.rdx.toNat) :
    ∃ t, Ends archStrncpy s t ∧ Writes s t s.rdi (padded s.rdx.toNat text) := by
  have hn := s.rdx.isLt
  by_cases hzero : s.rdx = 0
  · refine ⟨strncpyEntry s, ⟨0, fun fuel _ => archStrncpy_zero hzero fuel⟩, ?_, fun x _ => rfl⟩
    intro i b hi
    have hlt := (padded_getElem? hi).1
    rw [hzero] at hlt
    exact absurd hlt (Nat.not_lt_zero i)
  obtain ⟨n, hnat⟩ : ∃ n, s.rdx.toNat = n + 1 :=
    Nat.exists_eq_succ_of_ne_zero fun h => hzero (BitVec.eq_of_toNat_eq h)
  -- the last byte loaded is the terminator, or the one that completes the `n`
  obtain ⟨k, hk⟩ : ∃ k, k = min n text.length := ⟨_, rfl⟩
  have hload : ∀ i ≤ k, s.loaded i = s.mem (s.rsi + BitVec.ofNat 64 i) := by
    intro i hi
    rw [hnat] at happ
    exact happ.loaded (by omega)
  have hne : ∀ i < k, s.loaded i ≠ 0 := by
    intro i hi
    rw [hload i hi.le]
    exact hsrc.ne_zero (by omega)
  have hstop : k + 1 = s.rdx.toNat ∨ s.loaded k = 0 := by
    rcases Nat.lt_or_ge n text.length with hlt | hge
    · exact .inl (by omega)
    · right
      rw [hload k (Nat.le_refl k), show k = text.length by omega]
      exact hsrc.terminator
  obtain ⟨t, ht, hrcx, hrun⟩ := archStrncpy_eq (s := s) (by omega) hne hstop
  have hleft : t.rcx.toNat = n - k := by
    rw [hrcx, BitVec.toNat_sub, BitVec.toNat_ofNat, hnat]
    omega
  have hstore := Storing.repStosb (s := t) ht.df
  rw [hleft] at hstore
  refine ⟨t.repStosb, ⟨k + 1, fun fuel hfuel => ?_⟩, ?_⟩
  · rw [hrun, if_pos (Nat.lt_of_succ_le hfuel)]
  · rw [hnat]
    exact Loading.writes_padded (e := strncpyEntry s) ht hk (by omega) rfl hsrc hload hstore

/-- The loop of `_arch_strcat` is entered at the terminator of the destination's text. -/
lemma strcatEntry_eq {old : List (BitVec 8)} (hdest : CText s.mem s.rdi old)
    (hlen : old.length + 1 < 2 ^ 64) :
    (strcatEntry s).rdi = s.rdi + BitVec.ofNat 64 old.length ∧ (strcatEntry s).rsi = s.rsi ∧
      (strcatEntry s).mem = s.mem ∧ (strcatEntry s).df = false := by
  obtain ⟨e, he⟩ : ∃ e : Machine, e =
      { (s.push s.rbx).cld with rbx := s.rdi, rax := 0, rcx := -1 } := ⟨_, rfl⟩
  have hscan : e.repnzScasb = { e with
      rdi := e.rdi + BitVec.ofNat 64 (old.length + 1)
      rcx := e.rcx - BitVec.ofNat 64 (old.length + 1) } := by
    rw [Machine.repnzScasb]
    subst he
    refine scasbs_of_cText rfl rfl hdest ?_
    show old.length < (-1#64).toNat
    rw [BitVec.toNat_neg]
    simp
    omega
  have hentry : strcatEntry s = { e.repnzScasb with rdi := e.repnzScasb.rdi - 1 } := by
    rw [he]
    rfl
  rw [hentry, hscan, he]
  refine ⟨?_, rfl, rfl, rfl⟩
  show s.rdi + BitVec.ofNat 64 (old.length + 1) - 1 = _
  rw [BitVec.ofNat_add, ← add_assoc]
  exact add_sub_cancel_right _ _

/-- `_arch_strcat` writes the source with its terminator behind the text of the destination. -/
lemma archStrcat_writes {old : List (BitVec 8)} (hsrc : CText s.mem s.rsi text)
    (hdest : CText s.mem s.rdi old)
    (happ : Apart s.rsi (text.length + 1) s.rdi (old.length + text.length + 1)) :
    ∃ t, Ends archStrcat s t ∧ CText t.mem s.rdi (old ++ text) ∧
      Writes s t (s.rdi + BitVec.ofNat 64 old.length) (text ++ [0]) := by
  have hlen := happ.lt
  obtain ⟨hrdi, hrsi, hmem, hdf⟩ := strcatEntry_eq hdest (by omega)
  have hload : ∀ i ≤ text.length,
      (strcatEntry s).loaded i = s.mem ((strcatEntry s).rsi + BitVec.ofNat 64 i) := by
    intro i hi
    rw [← hmem]
    refine Machine.loaded_of_disjoint (Nat.lt_succ_of_le hi) fun j hj => ?_
    rw [hrsi, hrdi]
    exact happ j hj old.length (by omega)
  have hsrc' : CText s.mem (strcatEntry s).rsi text := by rwa [hrsi]
  obtain ⟨u, hu, hrun⟩ := copyLoop_eq hdf hsrc.length_lt
    (fun i hi => by
      rw [hload i hi.le]
      exact hsrc'.ne_zero hi)
    (by
      rw [hload text.length (Nat.le_refl _)]
      exact hsrc'.terminator)
  have hwrites := Loading.writes hu hmem hsrc' hload
  rw [hrdi] at hwrites
  refine ⟨{ u with rax := u.rbx }.popRbx, ⟨text.length + 1, fun fuel hfuel => ?_⟩, ⟨?_, ?_⟩,
    hwrites.bytes, hwrites.frame⟩
  · rw [archStrcat, hrun, if_pos (Nat.lt_of_succ_le hfuel)]
    rfl
  · exact fun h => (List.mem_append.mp h).elim hdest.no_zero hsrc.no_zero
  · rw [List.append_assoc, bytes_append]
    refine ⟨fun i b hi => ?_, hwrites.bytes⟩
    -- the old text is in front of what was written
    have hlt := (List.getElem?_eq_some_iff.mp hi).1
    show u.mem (s.rdi + BitVec.ofNat 64 i) = b
    rw [hwrites.frame]
    · exact (bytes_append.mp hdest.bytes).1 i b hi
    · intro j hj
      rw [List.length_append, List.length_singleton] at hj
      rw [add_assoc, ← BitVec.ofNat_add]
      exact add_ofNat_ne s.rdi (by omega) (by omega)

/-- **What the copies write.**  For a source text that is apart from the destination,
`_arch_strncpy` writes `n` bytes, `_arch_strcpy` the text with its terminator, `_arch_strcat` the
text with its terminator behind the old one; nothing else changes. -/
theorem archCopies_write (hsrc : CText s.mem s.rsi text) :
    (Apart s.rsi (min s.rdx.toNat (text.length + 1)) s.rdi s.rdx.toNat →
        ∃ t, Ends archStrncpy s t ∧ Writes s t s.rdi (padded s.rdx.toNat text)) ∧
      (Apart s.rsi (text.length + 1) s.rdi (text.length + 1) →
        ∃ t, Ends archStrcpy s t ∧ Writes s t s.rdi (text ++ [0])) ∧
      ∀ old, CText s.mem s.rdi old →
        Apart s.rsi (text.length + 1) s.rdi (old.length + text.length + 1) →
        ∃ t, Ends archStrcat s t ∧ CText t.mem s.rdi (old ++ text) ∧
          Writes s t (s.rdi + BitVec.ofNat 64 old.length) (text ++ [0]) :=
  ⟨archStrncpy_writes hsrc, archStrcpy_writes hsrc, fun _ hdest => archStrcat_writes hsrc hdest⟩

lemma letterMachine_dest : CText letterMachine.mem letterMachine.rdi [0x42] := by decide

theorem archCopies_write_letter :
    (∃ t, Ends archStrncpy letterMachine t ∧ Writes letterMachine t 0x1000 [0x41, 0, 0]) ∧
      (∃ t, Ends archStrcpy letterMachine t ∧ Writes letterMachine t 0x1000 [0x41, 0]) ∧
      ∃ t, Ends archStrcat letterMachine t ∧ CText t.mem 0x1000 [0x42, 0x41] ∧
        Writes letterMachine t 0x1001 [0x41, 0] := by
  obtain ⟨hstrncpy, hstrcpy, hstrcat⟩ := archCopies_write letterMachine_source
  exact ⟨hstrncpy (by decide), hstrcpy (by decide),
    hstrcat [0x42] letterMachine_dest (by decide)⟩

end EvtDrivenOs.Strings
