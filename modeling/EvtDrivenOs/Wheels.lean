/-
The wheel command of the AVR port's shell, `wheels_service.c`.

`whl_command` copies the text in front of the first colon to a buffer of four bytes, with
nothing but the text to bound the copy.  It stays inside the buffer for at most three
characters; from the fourth on the NUL is written behind it, and then the text itself.
-/
import Mathlib.Data.Int.Notation
import EvtDrivenOs.Basic
import EvtDrivenOs.Lib.Text

namespace EvtDrivenOs.Wheels

open EvtDrivenOs.Lib

/-- The colon between the command and the action. -/
def colon : UInt8 := 0x3A

/-- `SPI_CS_PIN` -/
def spiCsPin : UInt8 := 2

/-- What the command does to the outside. -/
inductive WhlsIo
  | outString (text : String)
  | outStringFormat (text : String) (arg : ℕ)
  | gpiobWrite (pin : UInt8) (val : Bool)
  | spiWrite (val : UInt8)
deriving DecidableEq, Repr

/-! ### The command -/

/-- A write to `char cmd[4]`. -/
def writeCmd (cmd : Vector UInt8 4) (i : ℕ) (c : UInt8) : Except Fault (Vector UInt8 4) :=
  if h : i < 4 then .ok (cmd.set i c) else .error .outOfBounds

/-- The copy loop of `whl_command`: `cmd` is at index `i`, and `arg` is the rest of the string,
with the NUL behind it. -/
def whlCopy (cmd : Vector UInt8 4) (i : ℕ) :
    List UInt8 → Except Fault (Vector UInt8 4 × ℕ × List UInt8)
  | [] => .ok (cmd, i, [])
  | c :: arg =>
    if c = 0 ∨ c = colon then .ok (cmd, i, c :: arg)
    else match writeCmd cmd i c with
      | .error e => .error e
      | .ok cmd => whlCopy cmd (i + 1) arg

/-- The buffer after the call, and the result. -/
def whlCommand (cmd : Vector UInt8 4) (argv : List UInt8) :
    Except Fault (Vector UInt8 4 × List UInt8) :=
  match whlCopy cmd 0 argv with
  | .error e => .error e
  | .ok (cmd, i, arg) =>
    match writeCmd cmd i 0 with
    | .error e => .error e
    | .ok cmd => .ok (cmd, if arg.headD 0 = colon then arg.tail else arg)

/-- `whls_m` behind the call of `whl_command`, for the text that `strcmp` sees; `spi` is what comes
back over the SPI. -/
def whlsDispatch (spi : UInt8) (text arg : List UInt8) : List WhlsIo × ℤ :=
  let c := arg.headD 0
  if text = [0x63, 0x73] ∧ c = 0x30 then
    ([.outString "whlcnt sel\n", .gpiobWrite spiCsPin false], 0)
  else if text = [0x63, 0x73] ∧ c = 0x31 then
    ([.outString "whlcnt unsel\n", .gpiobWrite spiCsPin true], 0)
  else
    let unknown := if text = [0x63, 0x73] then [.outString "unknown action\n"] else []
    if text = [0x63, 0x6E, 0x74] then
      (unknown ++ [.spiWrite 0, .outStringFormat "whlcnt %d\n" spi.toNat], 0)
    else (unknown ++ [.outString "unknown command\n"], -1)

/-- The effects and the result of `whls_m`; its buffer is not initialised and contains
`stack`. -/
def whlsM (spi : UInt8) (stack : Vector UInt8 4) :
    List (List UInt8) → Except Fault (List WhlsIo × ℤ)
  | _ :: argv :: _ =>
    match whlCommand stack argv with
    | .error e => .error e
    | .ok (cmd, arg) => .ok (whlsDispatch spi (textOf cmd.toList) arg)
  | _ => .ok ([.outString "no wheel command given\n"], -1)

/-! ### The parts of an argument -/

/-- The text in front of the first colon. -/
def command (argv : List UInt8) : List UInt8 := argv.takeWhile (· ≠ colon)

/-- The text behind it. -/
def action (argv : List UInt8) : List UInt8 := (argv.dropWhile (· ≠ colon)).tail

variable {cmd cmd' : Vector UInt8 4} {i : ℕ} {c : UInt8} {argv : List UInt8}

lemma command_cons_colon (argv : List UInt8) : command (colon :: argv) = [] := by
  simp [command]

lemma command_cons (hc : c ≠ colon) (argv : List UInt8) :
    command (c :: argv) = c :: command argv := by
  simp [command, hc]

lemma zero_not_mem_command (hnul : 0 ∉ argv) : 0 ∉ command argv :=
  fun h => hnul ((List.takeWhile_prefix _).subset h)

/-! ### The copy -/

lemma writeCmd_ok (h : i < 4) : writeCmd cmd i c = .ok (cmd.set i c) := dif_pos h

lemma writeCmd_error (h : ¬ i < 4) : writeCmd cmd i c = .error .outOfBounds := dif_neg h

/-- The copy of a command that fits, up to the byte behind it. -/
lemma whlCopy_ok (cmd : Vector UInt8 4) (i : ℕ) (hnul : 0 ∉ argv)
    (hfit : i + (command argv).length ≤ 4) :
    ∃ cmd', whlCopy cmd i argv =
        .ok (cmd', i + (command argv).length, argv.dropWhile (· ≠ colon)) ∧
      cmd'.toList.take (i + (command argv).length) = cmd.toList.take i ++ command argv := by
  induction argv generalizing cmd i with
  | nil => exact ⟨cmd, rfl, by simp [command]⟩
  | cons c argv ih =>
    rw [whlCopy]
    by_cases hc : c = colon
    · subst hc
      exact ⟨cmd, by simp [command], by simp [command]⟩
    · have hc0 : c ≠ 0 := (List.ne_of_not_mem_cons hnul).symm
      rw [command_cons hc, List.length_cons] at hfit ⊢
      rw [if_neg (not_or.mpr ⟨hc0, hc⟩), writeCmd_ok (by omega)]
      have hi : i < 4 := by omega
      obtain ⟨cmd', hcopy, htake⟩ :=
        ih (cmd.set i c) (i + 1) (List.not_mem_of_not_mem_cons hnul) (by omega)
      have hlen : i + ((command argv).length + 1) = i + 1 + (command argv).length := by omega
      refine ⟨cmd', ?_, ?_⟩
      · rw [hlen, List.dropWhile_cons_of_pos (by simpa using hc)]
        exact hcopy
      · rw [hlen, htake, take_set_succ hi, List.append_assoc]
        rfl

/-- The copy of a command that does not fit. -/
lemma whlCopy_error (hnul : 0 ∉ argv) (hfit : 4 < i + (command argv).length) (hi : i ≤ 4) :
    whlCopy cmd i argv = .error .outOfBounds := by
  induction argv generalizing cmd i with
  | nil =>
    simp only [command, List.takeWhile_nil, List.length_nil] at hfit
    omega
  | cons c argv ih =>
    by_cases hc : c = colon
    · subst hc
      rw [command_cons_colon, List.length_nil] at hfit
      omega
    · have hc0 : c ≠ 0 := (List.ne_of_not_mem_cons hnul).symm
      rw [command_cons hc, List.length_cons] at hfit
      rw [whlCopy, if_neg (not_or.mpr ⟨hc0, hc⟩)]
      by_cases hlt : i < 4
      · rw [writeCmd_ok hlt]
        exact ih (List.not_mem_of_not_mem_cons hnul) (by omega) hlt
      · rw [writeCmd_error hlt]

/-! ### The split -/

/-- What `whl_command` is to leave for the argument `argv`: a string in the buffer, which is
the command if there is room for it, and the action. -/
structure Splits (argv : List UInt8) (cmd : Vector UInt8 4) (arg : List UInt8) : Prop where
  /-- The command has an end. -/
  terminated : 0 ∈ cmd.toList
  /-- A command that fits is in it. -/
  text : (command argv).length < 4 → textOf cmd.toList = command argv
  /-- The argument is what comes behind it. -/
  arg_eq : arg = action argv

/-- `arg` is behind the colon, or where the string ends. -/
lemma skip_colon (argv : List UInt8) :
    (if (argv.dropWhile (· ≠ colon)).headD 0 = colon then (argv.dropWhile (· ≠ colon)).tail
      else argv.dropWhile (· ≠ colon)) = action argv := by
  rw [action]
  cases h : argv.dropWhile (· ≠ colon) with
  | nil => rfl
  | cons c arg =>
    have hhead := List.head?_dropWhile_not (· ≠ colon) argv
    rw [h] at hhead
    have hc : c = colon := by simpa using hhead
    rw [List.headD_cons, if_pos hc]

lemma whlCommand_splits (cmd : Vector UInt8 4) (hnul : 0 ∉ argv)
    (hfit : (command argv).length < 4) :
    ∃ cmd' arg, whlCommand cmd argv = .ok (cmd', arg) ∧ Splits argv cmd' arg := by
  obtain ⟨cmd', hcopy, htake⟩ := whlCopy_ok cmd 0 hnul (by omega)
  rw [Nat.zero_add] at hcopy htake
  rw [List.take_zero, List.nil_append] at htake
  have hholds : HoldsText (cmd'.set (command argv).length 0) (command argv) := by
    apply HoldsText.of_take_snoc (zero_not_mem_command hnul)
    rw [take_set_succ hfit, htake]
  refine ⟨cmd'.set (command argv).length 0, action argv, ?_, hholds.terminated,
    fun _ => hholds.textOf_eq, rfl⟩
  simp only [whlCommand, hcopy, writeCmd_ok hfit, skip_colon]

lemma whlCommand_error (cmd : Vector UInt8 4) (hnul : 0 ∉ argv)
    (hfit : 4 ≤ (command argv).length) : whlCommand cmd argv = .error .outOfBounds := by
  rcases Nat.lt_or_ge 4 (command argv).length with hlt | hge
  · rw [whlCommand, whlCopy_error hnul (by omega) (by decide)]
  · -- the text fills the buffer, and the NUL is behind it
    obtain ⟨cmd', hcopy, -⟩ := whlCopy_ok cmd 0 hnul (by omega)
    rw [whlCommand, hcopy]
    simp only [writeCmd_error (show ¬ 0 + (command argv).length < 4 by omega)]

/-- **The parser stays inside its buffer**, and splits the argument, just for commands of at
most three characters. -/
theorem whlCommand_splits_iff (cmd : Vector UInt8 4) (hnul : 0 ∉ argv) :
    (∃ cmd' arg, whlCommand cmd argv = .ok (cmd', arg) ∧ Splits argv cmd' arg) ↔
      (command argv).length ≤ 3 := by
  constructor
  · rintro ⟨cmd', arg, hcall, -⟩
    by_contra hlong
    rw [whlCommand_error cmd hnul (by omega)] at hcall
    cases hcall
  · intro hfit
    exact whlCommand_splits cmd hnul (by omega)

/-- What the shell command does with its argument. -/
lemma whlsM_eq (spi : UInt8) (stack : Vector UInt8 4) (name : List UInt8) (hnul : 0 ∉ argv)
    (argvs : List (List UInt8)) :
    whlsM spi stack (name :: argv :: argvs) =
      if (command argv).length < 4 then .ok (whlsDispatch spi (command argv) (action argv))
      else .error .outOfBounds := by
  split_ifs with hfit
  · obtain ⟨cmd', arg, hcall, hsplits⟩ := whlCommand_splits stack hnul hfit
    simp only [whlsM, hcall, hsplits.text hfit, hsplits.arg_eq]
  · simp only [whlsM, whlCommand_error stack hnul (Nat.not_lt.mp hfit)]

/-- `cs:1` -/
theorem whlCommand_splits_cs :
    ∃ cmd arg, whlCommand #v[0xA5, 0xA5, 0xA5, 0xA5] [0x63, 0x73, 0x3A, 0x31] = .ok (cmd, arg) ∧
      Splits [0x63, 0x73, 0x3A, 0x31] cmd arg :=
  (whlCommand_splits_iff _ (by decide)).mpr (by decide)

/-- For `stop` the NUL is written behind the buffer. -/
theorem whlCommand_stop :
    whlCommand #v[0xA5, 0xA5, 0xA5, 0xA5] [0x73, 0x74, 0x6F, 0x70] = .error .outOfBounds ∧
      ¬ ∃ cmd arg, whlCommand #v[0xA5, 0xA5, 0xA5, 0xA5] [0x73, 0x74, 0x6F, 0x70] = .ok (cmd, arg) ∧
        Splits [0x73, 0x74, 0x6F, 0x70] cmd arg := by
  have herror := whlCommand_error #v[0xA5, 0xA5, 0xA5, 0xA5]
    (show 0 ∉ [0x73, 0x74, 0x6F, 0x70] by decide) (by decide)
  refine ⟨herror, ?_⟩
  rintro ⟨cmd, arg, hcall, -⟩
  rw [herror] at hcall
  cases hcall

end EvtDrivenOs.Wheels
