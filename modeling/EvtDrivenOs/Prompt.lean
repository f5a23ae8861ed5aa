/-
The shell prompt of the x86-64 port, `prompt.c` with `fat_getcwd` of `fat.c`.

The prompt is put together in a buffer of 256 bytes and copied to the caller's if it fits,
but the test compares the length without the terminator: when the prompt has as many
characters as the caller's buffer, the terminator is written behind it.

`f_getcwd` of FatFs is a parameter, of which only its documented behaviour is used.
-/
import EvtDrivenOs.Fat.Table
import EvtDrivenOs.Lib.Text

namespace EvtDrivenOs.Prompt

open EvtDrivenOs.Lib
open EvtDrivenOs.Fat (Fresult FatErrorCode fatErrCode)

/-! ### `f_getcwd` -/

/-- `f_getcwd`: the result, and the bytes that are in the buffer from its start on, for the
number of bytes that may be used. -/
abbrev FGetcwd : Type := ℕ → Fresult × List UInt8

/-- What is documented of `f_getcwd`. -/
structure FGetcwd.Documented (f : FGetcwd) : Prop where
  /-- It uses the given number of bytes at most. -/
  room : ∀ len, (f len).2.length ≤ len
  /-- When it succeeds, there is a string in them. -/
  string : ∀ len, (f len).1 = .frOk → 0 ∈ (f len).2

/-! ### The code -/

/-- The character `>`. -/
def gt : UInt8 := 0x3E

/-- `char s_prompt[256] = { "> " }` -/
def sPrompt : Vector UInt8 256 := ((Vector.replicate 256 0).set 0 gt).set 1 0x20

/-- Bytes written to `s_prompt`. -/
def store (s : Vector UInt8 256) (i : ℕ) (bytes : List UInt8) : Except Fault (Vector UInt8 256) :=
  match put s i bytes with
  | some s => .ok s
  | none => .error .outOfBounds

/-- `strlen` of `s_prompt`; without a NUL in it, it reads behind it. -/
def strlen (s : Vector UInt8 256) : Except Fault ℕ :=
  if 0 ∈ s.toList then .ok (textOf s.toList).length else .error .outOfBounds

/-- `strcat(s_prompt, ">")` -/
def strcatGt (s : Vector UInt8 256) : Except Fault (Vector UInt8 256) := do
  let n ← strlen s
  store s n [gt, 0]

/-- `fat_getcwd`; the error code that it looks at is set from the result of `f_getcwd`. -/
def fatGetcwd (f : FGetcwd) (cwd : Vector UInt8 256) : Except Fault (Vector UInt8 256) := do
  let r := f 255
  let cwd ← store cwd 0 r.2
  if fatErrCode r.1 ≠ .fatOk then store cwd 0 [0] else .ok cwd

/-- `s_prompt` when the prompt is complete. -/
def shellText (f : FGetcwd) (cdrive : UInt8) : Except Fault (Vector UInt8 256) :=
  if cdrive ≠ 0 then do
    let s ← fatGetcwd f sPrompt
    if s[0] = cdrive then strcatGt s else .ok s
  else .ok sPrompt

/-- The bytes that `_shell_prompt` writes from `prompt` on, `none` when it writes none;
`prompt` says whether the pointer is not null. -/
def shellPrompt (f : FGetcwd) (cdrive : UInt8) (prompt : Bool) (pLen : ℕ) :
    Except Fault (Option (List UInt8)) :=
  if !prompt || pLen = 0 then .ok none
  else do
    let s ← shellText f cdrive
    let n ← strlen s
    if n ≤ pLen then .ok (some (textOf s.toList ++ [0])) else .ok none

/-! ### The prompt -/

/-- The current directory string, empty after an error. -/
def cwd (f : FGetcwd) : List UInt8 := if (f 255).1 = .frOk then textOf (f 255).2 else []

/-- The complete prompt: the directory, with a `>` behind it if it starts with the letter of
the drive, or `> ` if there is no drive. -/
def promptText (cdrive : UInt8) (cwd : List UInt8) : List UInt8 :=
  if cdrive = 0 then [gt, 0x20] else if cwd.head? = some cdrive then cwd ++ [gt] else cwd

variable {f : FGetcwd} {s : Vector UInt8 256} {text : List UInt8} {cdrive : UInt8} {pLen : ℕ}

lemma strlen_eq (h : HoldsText s text) : strlen s = .ok text.length := by
  rw [strlen, if_pos h.terminated, h.textOf_eq]

lemma store_eq (s : Vector UInt8 256) {i : ℕ} {bytes : List UInt8} (h : i + bytes.length ≤ 256) :
    ∃ s', store s i bytes = .ok s' ∧
      s'.toList.take (i + bytes.length) = s.toList.take i ++ bytes := by
  obtain ⟨s', hput, htake⟩ := put_of_le s h
  exact ⟨s', by rw [store, hput], htake⟩

lemma strcatGt_eq (h : HoldsText s text) (hroom : text.length + 2 ≤ 256) :
    ∃ s', strcatGt s = .ok s' ∧ HoldsText s' (text ++ [gt]) := by
  obtain ⟨s', hstore, htake⟩ := store_eq s (show text.length + [gt, 0].length ≤ 256 from hroom)
  refine ⟨s', by rw [strcatGt, strlen_eq h]; exact hstore, .of_take_snoc ?_ ?_⟩
  · simp [h.no_zero, gt]
  · rw [h.take_eq] at htake
    simpa using htake

lemma holdsText_sPrompt : HoldsText sPrompt [gt, 0x20] := by
  refine .of_take_snoc (by decide) ?_
  decide

lemma length_cwd (hf : f.Documented) : (cwd f).length < 255 := by
  rw [cwd]
  split_ifs with hok
  · obtain ⟨rest, hrest⟩ := textOf_append (hf.string 255 hok)
    have hlen := congrArg List.length hrest
    rw [List.length_append, List.length_cons] at hlen
    have hroom := hf.room 255
    omega
  · decide

/-- `fat_getcwd` leaves the directory string in `s_prompt`. -/
lemma fatGetcwd_eq (hf : f.Documented) :
    ∃ s, fatGetcwd f sPrompt = .ok s ∧ HoldsText s (cwd f) := by
  have hroom := hf.room 255
  obtain ⟨s, hstore, htake⟩ := store_eq sPrompt (show 0 + (f 255).2.length ≤ 256 by omega)
  rw [List.take_zero, List.nil_append, Nat.zero_add] at htake
  have hcall : fatGetcwd f sPrompt =
      if fatErrCode (f 255).1 ≠ .fatOk then store s 0 [0] else .ok s := by
    rw [fatGetcwd, hstore]
    rfl
  rw [hcall, cwd]
  by_cases hok : (f 255).1 = .frOk
  · rw [hok, if_neg (by decide), if_pos rfl]
    exact ⟨s, rfl, .of_take htake (hf.string 255 hok)⟩
  · have herr : fatErrCode (f 255).1 ≠ .fatOk := by
      cases hres : (f 255).1 with
      | frOk => exact absurd hres hok
      | frDiskErr | frNoFile | frNoPath | frDenied | other => simp [fatErrCode]
    rw [if_pos herr, if_neg hok]
    -- the string is made empty
    obtain ⟨s', hstore', htake'⟩ := store_eq s (show 0 + [(0 : UInt8)].length ≤ 256 by decide)
    exact ⟨s', hstore', .of_take_snoc (List.not_mem_nil) htake'⟩

/-- The first character of `s_prompt`. -/
lemma getElem_zero_eq (h : HoldsText s text) (hc : cdrive ≠ 0) :
    s[0] = cdrive ↔ text.head? = some cdrive := by
  obtain ⟨rest, hrest⟩ := h.image
  have hzero : s[0] = s.toList.get ⟨0, by simp⟩ := by simp
  rw [hzero]
  cases text with
  | nil => simp [hrest, hc.symm]
  | cons c text => simp [hrest]

/-- The prompt is put together in `s_prompt` without leaving it. -/
lemma shellText_eq (hf : f.Documented) (cdrive : UInt8) :
    ∃ s, shellText f cdrive = .ok s ∧ HoldsText s (promptText cdrive (cwd f)) := by
  rw [shellText, promptText]
  by_cases hdrive : cdrive = 0
  · rw [if_neg (not_not_intro hdrive), if_pos hdrive]
    exact ⟨sPrompt, rfl, holdsText_sPrompt⟩
  · rw [if_pos hdrive, if_neg hdrive]
    obtain ⟨s, hcwd, hs⟩ := fatGetcwd_eq hf
    rw [hcwd]
    have hlen := length_cwd hf
    by_cases hhead : (cwd f).head? = some cdrive
    · obtain ⟨s', hcat, hs'⟩ := strcatGt_eq hs (by omega)
      refine ⟨s', ?_, by rwa [if_pos hhead]⟩
      rw [← hcat]
      exact if_pos ((getElem_zero_eq hs hdrive).mpr hhead)
    · refine ⟨s, ?_, by rwa [if_neg hhead]⟩
      exact if_neg (mt (getElem_zero_eq hs hdrive).mp hhead)

/-- The prompt is written with its terminator if its characters fit. -/
lemma shellPrompt_eq (hf : f.Documented) (cdrive : UInt8) (hlen : pLen ≠ 0) :
    shellPrompt f cdrive true pLen = .ok
      (if (promptText cdrive (cwd f)).length ≤ pLen then some (promptText cdrive (cwd f) ++ [0])
        else none) := by
  obtain ⟨s, htext, hs⟩ := shellText_eq hf cdrive
  have hcall : shellPrompt f cdrive true pLen = (do
      let n ← strlen s
      if n ≤ pLen then .ok (some (textOf s.toList ++ [0])) else .ok none) := by
    rw [shellPrompt, htext, if_neg (by simpa using hlen)]
    rfl
  rw [hcall, strlen_eq hs, hs.textOf_eq]
  exact (apply_ite Except.ok _ _ _).symm

/-- `_shell_prompt` stays inside `s_prompt` and inside the `p_len` bytes of the caller, and what
it writes is the complete prompt with its terminator. -/
def Fits (f : FGetcwd) (cdrive : UInt8) (prompt : Bool) (pLen : ℕ) : Prop :=
  ∃ out, shellPrompt f cdrive prompt pLen = .ok out ∧
    ∀ bytes, out = some bytes → bytes.length ≤ pLen ∧ bytes = promptText cdrive (cwd f) ++ [0]

/-- The caller's buffer has as many bytes as the prompt has characters. -/
def Brim (cdrive : UInt8) (cwd : List UInt8) (pLen : ℕ) : Prop :=
  cdrive = 0 ∧ pLen = 2 ∨
    cdrive ≠ 0 ∧ cwd.head? = some cdrive ∧ pLen = cwd.length + 1 ∨
    cdrive ≠ 0 ∧ cwd.head? ≠ some cdrive ∧ pLen = cwd.length

instance {cwd : List UInt8} : Decidable (Brim cdrive cwd pLen) :=
  inferInstanceAs (Decidable (_ ∨ _ ∨ _))

lemma brim_iff {cwd : List UInt8} :
    Brim cdrive cwd pLen ↔ pLen = (promptText cdrive cwd).length := by
  rw [Brim, promptText]
  split_ifs <;> simp [*]

/-- **The shell prompt fits its buffer**, unless the buffer has just no room for the
terminator. -/
theorem shellPrompt_fits_iff (hf : f.Documented) (cdrive : UInt8) (prompt : Bool) (pLen : ℕ) :
    Fits f cdrive prompt pLen ↔ prompt = false ∨ pLen = 0 ∨ ¬ Brim cdrive (cwd f) pLen := by
  rw [brim_iff]
  by_cases hnone : prompt = false ∨ pLen = 0
  · refine iff_of_true ⟨none, ?_, fun bytes h => by cases h⟩ ?_
    · rw [shellPrompt, if_pos (by simpa using hnone)]
    · rcases hnone with h | h
      · exact .inl h
      · exact .inr (.inl h)
  · obtain ⟨hprompt, hlen⟩ := not_or.mp hnone
    rw [Bool.not_eq_false] at hprompt
    subst hprompt
    rw [Fits, shellPrompt_eq hf cdrive hlen]
    simp only [Except.ok.injEq, exists_eq_left', Bool.true_eq_false, hlen, false_or]
    split_ifs with hle
    · simp only [Option.some_inj, forall_eq', List.length_append, List.length_singleton, and_true]
      omega
    · exact iff_of_true (fun bytes h => by cases h) (by omega)

/-- An `f_getcwd` in the root directory of drive `C`. -/
def rootOfC : FGetcwd := fun len =>
  if len < 4 then (.other 17, []) else (.frOk, [0x43, 0x3A, 0x2F, 0])

lemma rootOfC_documented : rootOfC.Documented where
  room len := by
    rw [rootOfC]
    split_ifs with h
    · exact Nat.zero_le len
    · exact Nat.not_lt.mp h
  string len h := by
    rw [rootOfC] at h ⊢
    split_ifs at h ⊢
    decide

/-- `C:/>` in a buffer of five bytes. -/
theorem shellPrompt_fits_root : Fits rootOfC 0x43 true 5 :=
  (shellPrompt_fits_iff rootOfC_documented 0x43 true 5).mpr (.inr (.inr (by decide)))

/-- In one of four bytes, the terminator is written behind it. -/
theorem shellPrompt_brim :
    shellPrompt rootOfC 0x43 true 4 = .ok (some [0x43, 0x3A, 0x2F, 0x3E, 0]) ∧
      ¬ Fits rootOfC 0x43 true 4 := by
  have hcall : shellPrompt rootOfC 0x43 true 4 = .ok (some [0x43, 0x3A, 0x2F, 0x3E, 0]) :=
    shellPrompt_eq rootOfC_documented 0x43 (by decide)
  refine ⟨hcall, ?_⟩
  rintro ⟨out, hout, hfits⟩
  rw [hcall] at hout
  cases hout
  exact absurd (hfits _ rfl).1 (by decide)

end EvtDrivenOs.Prompt
