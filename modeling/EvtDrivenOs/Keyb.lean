/-
The keyboard of the x86-64 port, `keyb.c`.

A make sets the flag of a modifier key, and a break toggles it.  So the flag is right as long
as every break of a modifier comes after a make, and otherwise it sticks.
-/
import EvtDrivenOs.Lib.Run
import Mathlib.Data.BitVec
import Mathlib.Logic.Function.Basic

namespace EvtDrivenOs.Keyb

open EvtDrivenOs.Lib

/-! ### The code -/

/-- The left shift key is held. -/
def kbLshiftHolds : BitVec 8 := 0x01

/-- The right shift key is held. -/
def kbRshiftHolds : BitVec 8 := 0x02

/-- A control key is held. -/
def kbCtrlHolds : BitVec 8 := 0x04

/-- The next code is that of a key that is let go. -/
def kbKeyBreak : BitVec 8 := 0x08

/-- `Make` -/
def make : List (BitVec 8) :=
  [0xF0, 0x1C, 0x32, 0x21, 0x23, 0x24, 0x2B, 0x34, 0x33, 0x43, 0x3B, 0x42, 0x4B, 0x3A, 0x31, 0x44,
    0x4D, 0x15, 0x2D, 0x1B, 0x2C, 0x3C, 0x2A, 0x1D, 0x22, 0x35, 0x1A, 0x45, 0x16, 0x1E, 0x26, 0x25,
    0x2E, 0x36, 0x3D, 0x3E, 0x46, 0x0E, 0x4E, 0x55, 0x5D, 0x66, 0x29, 0x0D, 0x58, 0x12, 0x14, 0x11,
    0x59, 0x5A, 0x76, 0x05, 0x06, 0x04, 0x0C, 0x03, 0x0B, 0x83, 0x0A, 0x01, 0x09, 0x78, 0x07, 0x7E,
    0x54, 0x5B, 0x77, 0x7C, 0x71, 0x70, 0x69, 0x72, 0x7A, 0x6B, 0x73, 0x74, 0x6C, 0x75, 0x7D, 0x7B,
    0x79, 0x4C, 0x52, 0x41, 0x49, 0x4A]

/-- `Keys`: the keys without shift, and then those with it. -/
def keys : List String :=
  ["brk", "a", "b", "c", "d", "e", "f", "g", "h", "i", "j", "k", "l", "m", "n", "o", "p", "q", "r",
    "s", "t", "u", "v", "w", "x", "y", "z", "0", "1", "2", "3", "4", "5", "6", "7", "8", "9", "`",
    "-", "=", "\\", "\x08", " ", "\t", "CAPS", "LSHFT", "LCTRL", "LALT", "RSHFT", "\n", "ESC", "F1",
    "F2", "F3", "F4", "F5", "F6", "F7", "F8", "F9", "F10", "F11", "F12", "SCROLL", "[", "]", "NUM",
    "KP*", "KP.", "KP0", "KP1", "KP2", "KP3", "KP4", "KP5", "KP6", "KP7", "KP8", "KP9", "KP-",
    "KP+", ";", "'", ",", ".", "/", "A", "B", "C", "D", "E", "F", "G", "H", "I", "J", "K", "L", "M",
    "N", "O", "P", "Q", "R", "S", "T", "U", "V", "W", "X", "Y", "Z", "0", "1", "2", "3", "4", "5",
    "6", "7", "8", "9", "~", "_", "+", "|", "\x08", " ", "\t", "CAPS", "LSHFT", "LCTRL", "LALT",
    "RSHFT", "\n", "ESC", "F1", "F2", "F3", "F4", "F5", "F6", "F7", "F8", "F9", "F10", "F11", "F12",
    "SCROLL", "[", "]", "NUM", "KP*", "KP.", "KP0", "KP1", "KP2", "KP3", "KP4", "KP5", "KP6", "KP7",
    "KP8", "KP9", "KP-", "KP+", ":", "\"", "<", ">", "?"]

/-- `console_key_t` -/
structure ConsoleKey where
  code : BitVec 8
  scanCode : BitVec 8
deriving DecidableEq, Repr

/-- The number of the key, or `0xFF` for a code that is not in the table. -/
def keybScanCodeDecode (scanCode : BitVec 8) : BitVec 8 :=
  let index := make.idxOf scanCode
  if index < make.length then BitVec.ofNat 8 index else 0xFF

/-- The code of a key, 0 for one whose name is longer than one character. -/
def keyCode (decoded : String) : BitVec 8 :=
  match decoded.toList with
  | [] => 0
  | [c] => BitVec.ofNat 8 c.toNat
  | _ => 0

/-- The index of a key in `Keys`. -/
def keyIndex (keybState index : BitVec 8) : ℕ :=
  index.toNat + 85 * if keybState &&& (kbLshiftHolds ||| kbRshiftHolds) ≠ 0 then 1 else 0

/-- `_kernel_onKeybScan`, with the event that it publishes. -/
def kernelOnKeybScan (keybState scanCode : BitVec 8) : BitVec 8 × Option ConsoleKey :=
  if scanCode = 0xF0 then (keybState ||| kbKeyBreak, none)
  else if keybState &&& kbKeyBreak ≠ 0 then
    let keybState := keybState ^^^ kbKeyBreak
    -- a break toggles the flag where a make sets it
    if scanCode = 0x12 then (keybState ^^^ kbLshiftHolds, none)
    else if scanCode = 0x59 then (keybState ^^^ kbRshiftHolds, none)
    else if scanCode = 0x14 then (keybState ^^^ kbCtrlHolds, none)
    else (keybState, none)
  else if scanCode = 0x12 then (keybState ||| kbLshiftHolds, none)
  else if scanCode = 0x59 then (keybState ||| kbRshiftHolds, none)
  else if scanCode = 0x14 then (keybState ||| kbCtrlHolds, none)
  else
    let index := keybScanCodeDecode scanCode
    if index = 0xFF then (keybState, none)
    else
      let decoded := keys.getD (keyIndex keybState index) ""
      (keybState, some ⟨keyCode decoded, scanCode⟩)

/-- The index is in bounds. -/
lemma keyIndex_lt (keybState : BitVec 8) {scanCode : BitVec 8}
    (h : keybScanCodeDecode scanCode ≠ 0xFF) :
    keyIndex keybState (keybScanCodeDecode scanCode) < keys.length := by
  have hmake : make.length = 86 := rfl
  have hkeys : keys.length = 171 := rfl
  rw [keybScanCodeDecode, hmake] at h ⊢
  split at h
  case isTrue hlt =>
    rw [if_pos hlt, keyIndex, BitVec.toNat_ofNat, hkeys]
    split <;> omega
  case isFalse => exact absurd rfl h

/-! ### Modifier keys -/

/-- The keys that the flags are about. -/
inductive Modifier
  | lshift
  | rshift
  | ctrl
deriving DecidableEq, Repr

namespace Modifier

/-- Both Ctrl keys have the same code, after a prefix that is a code of its own. -/
def code : Modifier → BitVec 8
  | .lshift => 0x12
  | .rshift => 0x59
  | .ctrl => 0x14

/-- The flag for a modifier. -/
def flag : Modifier → BitVec 8
  | .lshift => kbLshiftHolds
  | .rshift => kbRshiftHolds
  | .ctrl => kbCtrlHolds

/-- The place of the flag. -/
def bit : Modifier → ℕ
  | .lshift => 0
  | .rshift => 1
  | .ctrl => 2

end Modifier

/-- The state of the driver with what it was told of the keys. -/
structure KeybSys where
  keybState : BitVec 8
  /-- The last code was that for a break, which a code will follow. -/
  breaks : Bool
  /-- The last event for a scan code was a make. -/
  held : BitVec 8 → Bool

/-- No key is held and no flag is set. -/
def keybStart : KeybSys := ⟨0, false, fun _ => false⟩

/-- One code: what the driver makes of it, and what it says about the keys. -/
def keybStep (s : KeybSys) (scanCode : BitVec 8) : KeybSys where
  keybState := (kernelOnKeybScan s.keybState scanCode).1
  breaks := decide (scanCode = 0xF0)
  held := if scanCode = 0xF0 then s.held else Function.update s.held scanCode (!s.breaks)

/-- The flag of every modifier is set if and only if the last event for it was a make. -/
def FlagsRight (s : KeybSys) : Prop :=
  ∀ m : Modifier, s.keybState &&& m.flag ≠ 0 ↔ s.held m.code = true

/-- A break of a modifier comes when the last event for it was a make. -/
def BreaksHeld (s : KeybSys) (scanCode : BitVec 8) : Prop :=
  s.breaks = true → ∀ m : Modifier, scanCode = m.code → s.held scanCode = true

/-! ### Bits -/

/-- The flag of the modifier that has the scan code. -/
def flagOf (scanCode : BitVec 8) : BitVec 8 :=
  if scanCode = 0x12 then kbLshiftHolds
  else if scanCode = 0x59 then kbRshiftHolds
  else if scanCode = 0x14 then kbCtrlHolds
  else 0

lemma kernelOnKeybScan_fst (k c : BitVec 8) :
    (kernelOnKeybScan k c).1 =
      if c = 0xF0 then k ||| kbKeyBreak
      else if k &&& kbKeyBreak ≠ 0 then k ^^^ kbKeyBreak ^^^ flagOf c
      else k ||| flagOf c := by
  rw [kernelOnKeybScan, flagOf]
  split
  · rfl
  split
  · split
    · rfl
    split
    · rfl
    split
    · rfl
    · exact (BitVec.xor_zero).symm
  · split
    · rfl
    split
    · rfl
    split
    · rfl
    · dsimp only
      split <;> exact (BitVec.or_zero).symm

lemma and_twoPow_ne_zero (k : BitVec 8) {i : ℕ} (hi : i < 8) :
    k &&& BitVec.twoPow 8 i ≠ 0 ↔ k.getLsbD i = true := by
  rw [BitVec.and_twoPow]
  split
  case isTrue h =>
    refine iff_of_true (fun h0 => ?_) h
    have hbit := congrArg (BitVec.getLsbD · i) h0
    simp [hi] at hbit
  case isFalse h => exact iff_of_false (fun h0 => h0 rfl) h

lemma and_flag_ne_zero (k : BitVec 8) (m : Modifier) :
    k &&& m.flag ≠ 0 ↔ k.getLsbD m.bit = true := by
  cases m with
  | lshift => exact @and_twoPow_ne_zero k 0 (by decide)
  | rshift => exact @and_twoPow_ne_zero k 1 (by decide)
  | ctrl => exact @and_twoPow_ne_zero k 2 (by decide)

lemma and_break_ne_zero (k : BitVec 8) : k &&& kbKeyBreak ≠ 0 ↔ k.getLsbD 3 = true :=
  @and_twoPow_ne_zero k 3 (by decide)

/-- The flags of the modifiers have different places. -/
lemma getLsbD_flagOf (c : BitVec 8) (m : Modifier) :
    (flagOf c).getLsbD m.bit = decide (c = m.code) := by
  rw [flagOf]
  split
  case isTrue h =>
    subst h
    cases m <;> rfl
  split
  case isTrue h =>
    subst h
    cases m <;> rfl
  split
  case isTrue h =>
    subst h
    cases m <;> rfl
  case isFalse h1 h2 h3 =>
    cases m with
    | lshift => exact (decide_eq_false h1).symm
    | rshift => exact (decide_eq_false h2).symm
    | ctrl => exact (decide_eq_false h3).symm

lemma getLsbD_break_bit (m : Modifier) : kbKeyBreak.getLsbD m.bit = false := by
  cases m <;> rfl

lemma getLsbD_flagOf_break (c : BitVec 8) : (flagOf c).getLsbD 3 = false := by
  rw [flagOf]
  split
  · rfl
  split
  · rfl
  split <;> rfl

/-! ### Runs -/

/-- The code for a break is remembered until the next code. -/
def BreakKnown (s : KeybSys) : Prop := s.keybState.getLsbD 3 = s.breaks

variable {s : KeybSys}

lemma breakKnown_step (s : KeybSys) (c : BitVec 8) : BreakKnown (keybStep s c) := by
  rw [BreakKnown, keybStep, kernelOnKeybScan_fst]
  by_cases hc : c = 0xF0
  · rw [if_pos hc, BitVec.getLsbD_or, decide_eq_true hc]
    exact Bool.or_true _
  · rw [if_neg hc, decide_eq_false hc]
    split
    case isTrue hb =>
      rw [and_break_ne_zero] at hb
      rw [BitVec.getLsbD_xor, BitVec.getLsbD_xor, hb, getLsbD_flagOf_break]
      rfl
    case isFalse hb =>
      rw [and_break_ne_zero, Bool.not_eq_true] at hb
      rw [BitVec.getLsbD_or, hb, getLsbD_flagOf_break]
      rfl

lemma flagsRight_iff :
    FlagsRight s ↔ ∀ m : Modifier, s.keybState.getLsbD m.bit = s.held m.code := by
  refine forall_congr' fun m => ?_
  rw [and_flag_ne_zero]
  exact Bool.eq_iff_iff.symm

lemma Modifier.code_ne (m : Modifier) : m.code ≠ 0xF0 := by
  cases m <;> decide

/-- The flag of a modifier after a code. -/
lemma getLsbD_step (h : BreakKnown s) (c : BitVec 8) (m : Modifier) :
    (keybStep s c).keybState.getLsbD m.bit =
      if c = m.code then
        if s.breaks then !s.keybState.getLsbD m.bit else true
      else s.keybState.getLsbD m.bit := by
  rw [keybStep, kernelOnKeybScan_fst]
  by_cases hc : c = 0xF0
  · have hne : c ≠ m.code := fun heq => m.code_ne (heq.symm.trans hc)
    rw [if_pos hc, if_neg hne, BitVec.getLsbD_or, getLsbD_break_bit, Bool.or_false]
  · rw [if_neg hc]
    have hb : s.keybState &&& kbKeyBreak ≠ 0 ↔ s.breaks = true := by
      rw [and_break_ne_zero, h]
    split
    case isTrue hbreak =>
      rw [if_pos (hb.1 hbreak), BitVec.getLsbD_xor, BitVec.getLsbD_xor, getLsbD_break_bit,
        Bool.xor_false, getLsbD_flagOf]
      split
      case isTrue hm => rw [decide_eq_true hm, Bool.xor_true]
      case isFalse hm => rw [decide_eq_false hm, Bool.xor_false]
    case isFalse hbreak =>
      rw [if_neg (fun hs => hbreak (hb.2 hs)), BitVec.getLsbD_or, getLsbD_flagOf]
      split
      case isTrue hm => rw [decide_eq_true hm, Bool.or_true]
      case isFalse hm => rw [decide_eq_false hm, Bool.or_false]

lemma held_step (c : BitVec 8) (m : Modifier) :
    (keybStep s c).held m.code = if c = m.code then !s.breaks else s.held m.code := by
  rw [keybStep]
  by_cases hc : c = 0xF0
  · have hne : c ≠ m.code := fun heq => m.code_ne (heq.symm.trans hc)
    rw [if_pos hc, if_neg hne]
  · rw [if_neg hc]
    exact (Function.update_apply _ _ _ _).trans (by simp only [eq_comm])

/-- A code leaves the flags right if and only if it is no break of a modifier that is not
held. -/
lemma flagsRight_step_iff (c : BitVec 8) (h : BreakKnown s) (hr : FlagsRight s) :
    FlagsRight (keybStep s c) ↔ BreaksHeld s c := by
  rw [flagsRight_iff] at hr ⊢
  constructor
  · rintro hall hb m rfl
    have hm := hall m
    rw [getLsbD_step h, held_step, if_pos rfl, if_pos rfl, if_pos hb, hb, Bool.not_inj_iff] at hm
    rw [← hr m, hm]
  · intro hok m
    rw [getLsbD_step h, held_step]
    by_cases hc : c = m.code
    · rw [if_pos hc, if_pos hc]
      cases hb : s.breaks with
      | false => rfl
      | true =>
        have hheld := hok hb m hc
        rw [hc] at hheld
        rw [if_pos rfl, hr m, hheld]
    · rw [if_neg hc, if_neg hc, hr m]

/-- **Modifier keys do not stick** all along a sequence of scan codes if and only if every
break of a modifier in it comes when the last event for that scan code was a make. -/
theorem keyb_flagsRight_iff (codes : List (BitVec 8)) :
    (∀ pre, pre <+: codes → FlagsRight (run keybStep keybStart pre)) ↔
      Admissible keybStep BreaksHeld keybStart codes := by
  have hstart : FlagsRight keybStart := by
    intro m
    cases m <;> decide
  exact admissible_iff_forall_prefix (fun s c _ => breakKnown_step s c)
    (fun _ c h hr => flagsRight_step_iff c h hr) rfl hstart

/-- The release of a shift key that was held during boot sets its flag. -/
theorem keyb_sticks : ¬ FlagsRight (run keybStep keybStart [0xF0, 0x12]) := by
  intro h
  have hflag := (h .lshift).1 (by decide)
  exact absurd hflag (by decide)

end EvtDrivenOs.Keyb
