/-
What the transfers of the IDE driver move.

A transfer that reports success has passed a wait without an error before each of its sectors.
A read has then filled the buffer with the words of the data port, sector behind sector, and a
write has sent the words of the buffer in their order.
-/
import EvtDrivenOs.Ide.Disk
import EvtDrivenOs.Lib.X64Words

namespace EvtDrivenOs.Ide

open EvtDrivenOs.Lib.X64

/-! ### Waits that pass -/

lemma Settles.unique {st rest rest' : Stream' (BitVec 16)} {v v' : BitVec 16}
    (h : Settles st v rest) (h' : Settles st v' rest') : v = v' ∧ rest = rest' := by
  induction h with
  | now hb =>
    cases h' with
    | now => exact ⟨rfl, rfl⟩
    | later hb' => exact absurd hb' hb
  | later hb _ ih =>
    cases h' with
    | now hb' => exact absurd hb hb'
    | later _ hst' => exact ih hst'

/-- From `s` to `u` the loop has moved `n` sectors, each behind a wait without an error. -/
inductive Passed (sector : Machine → Machine) : ℕ → Machine → Machine → Prop
  | zero (s : Machine) : Passed sector 0 s s
  | succ {n : ℕ} {s u : Machine} {v : BitVec 16} {rest : Stream' (BitVec 16)}
      (hst : Settles (status s) v rest) (he : ¬ HasError v)
      (h : Passed sector n (nextSector sector s rest) u) : Passed sector (n + 1) s u

variable {sector : Machine → Machine} {last : ℕ → Machine → Option Machine}

/-- An error among the next waits comes behind those that have passed. -/
lemma Passed.fails (hsec : ∀ s, Moved 256 s (sector s)) {n m : ℕ} {s u : Machine}
    (h : Passed sector n s u) (hfail : SectorFails (n + m) (status s)) :
    SectorFails m (status u) := by
  induction h with
  | zero => rwa [Nat.zero_add] at hfail
  | @succ n s u v rest hst he _ ih =>
    have hstatus := (sectorDone_nextSector hsec s rest).status
    rw [Nat.succ_add] at hfail
    apply ih
    rw [hstatus]
    cases hfail with
    | now hst' he' => exact absurd ((hst.unique hst').1 ▸ he') he
    | later hst' _ hfail => exact (hst.unique hst').2 ▸ hfail

/-- A run of the loop that reports success has moved all its sectors. -/
lemma transferNxtSect_passed (hsec : ∀ s, Moved 256 s (sector s)) {fuel : ℕ} {s t : Machine}
    (h : transferNxtSect sector last fuel s = some t) (hs : s.rcx ≠ 0) (ht : t.rax ≠ 0) :
    ∃ u fuel' w, Passed sector s.rcx.toNat s u ∧ last fuel' u = some w ∧
      transferDone w = some t := by
  induction fuel generalizing s with
  | zero => cases h
  | succ fuel ih =>
    obtain ⟨v, rest, hst, hwait⟩ := wait_of_transferNxtSect h
    have hdone := sectorDone_nextSector hsec s rest
    rw [transferNxtSect_succ hsec hwait] at h
    rw [← toNat_sub_one hs]
    split at h
    case isTrue =>
      cases h
      exact absurd (by simp [answered]) ht
    case isFalse he =>
      split at h
      case isTrue hne =>
        rw [← hdone.rcx] at hne ⊢
        obtain ⟨u, fuel', w, hu, hw⟩ := ih h hne
        exact ⟨u, fuel', w, .succ hst he hu, hw⟩
      case isFalse hone =>
        obtain ⟨w, hw, h⟩ := Option.bind_eq_some_iff.mp h
        rw [not_not.mp hone]
        exact ⟨_, fuel, w, .succ hst he (.zero _), hw, h⟩

/-- Whatever becomes of the loop, it writes words to the data port and nothing else. -/
lemma transferNxtSect_words (hsec : ∀ s, Moved 256 s (sector s)) (hlast : OnlyAnswers last)
    {fuel : ℕ} {s t : Machine} (h : transferNxtSect sector last fuel s = some t) :
    ∃ ws, t.log = s.log ++ ws ∧ ∀ w ∈ ws, w.IsWord s.dx := by
  induction fuel generalizing s with
  | zero => cases h
  | succ fuel ih =>
    obtain ⟨v, rest, hst, hwait⟩ := wait_of_transferNxtSect h
    have hdone := sectorDone_nextSector hsec s rest
    obtain ⟨ws, hlog, -, hws⟩ := hdone.log
    rw [transferNxtSect_succ hsec hwait] at h
    split at h
    · cases h
      exact ⟨[], by simp [answered], by simp⟩
    split at h
    · obtain ⟨ws', hlog', hws'⟩ := ih h
      have hdx : (nextSector sector s rest).dx = s.dx := by simp only [Machine.dx, hdone.rdx]
      refine ⟨ws ++ ws', by rw [hlog', hlog, List.append_assoc], fun w hw => ?_⟩
      rcases List.mem_append.mp hw with hw | hw
      · exact hws w hw
      · exact hdx ▸ hws' w hw
    · obtain ⟨w, hw, h⟩ := Option.bind_eq_some_iff.mp h
      obtain ⟨b, rest', rfl⟩ := hlast _ _ _ hw
      cases h
      exact ⟨ws, by simpa [answered] using hlog, hws⟩

/-! ### The words of the sectors -/

lemma readSector_eq (s : Machine) : readSector s =
    Machine.inswed { s with df := false, rcx := 256, rdi := s.r12 } 256 := by
  have hcount : 2 * 256 ≤ 2 ^ 64 := by decide
  exact Machine.iterate_insw rfl hcount

lemma writeSector_eq (s : Machine) : writeSector s =
    Machine.outswed { s with df := false, rcx := 256, rsi := s.r12 } 256 := by
  have hrcx : ({ s with df := false, rcx := 256, rsi := s.r12 } : Machine).rcx ≠ 0 := by
    show (256 : BitVec 64) ≠ 0
    decide
  show Machine.loop _ _ = _
  rw [Machine.loop, if_neg hrcx]
  exact Machine.iterate_outsw rfl 256

lemma nextSector_read (s : Machine) (rest : Stream' (BitVec 16)) :
    (nextSector readSector s rest).mem = filled s.mem s.r12 512 (s.inp s.dx) ∧
      (nextSector readSector s rest).r12 = s.r12 + 512 ∧
      (nextSector readSector s rest).inp s.dx = (s.inp s.dx).drop 256 := by
  have hdata : s.dx ≠ regPort s.rdx ideStatusCommandReg := by
    simp [regPort, ideStatusCommandReg]
  have hdelay : s.dx ≠ regPort s.rdx 0x206 := by
    simp [regPort]
  simp only [Machine.dx] at hdata hdelay
  simp only [nextSector, readSector_eq, Machine.inswed, answered, Machine.push, Machine.dx,
    Function.update_of_ne hdata, Function.update_of_ne hdelay, Function.update_self, and_self]

/-- Sectors that are read fill the buffer. -/
lemma Passed.read {n : ℕ} {s u : Machine} (h : Passed readSector n s u)
    (hn : 512 * n ≤ 2 ^ 64) : u.mem = filled s.mem s.r12 (512 * n) (s.inp s.dx) := by
  induction h with
  | zero s =>
    funext b
    simp [filled]
  | @succ n s u v rest _ _ _ ih =>
    obtain ⟨hmem, hr12, hinp⟩ := nextSector_read s rest
    have hdx : (nextSector readSector s rest).dx = s.dx := by
      simp only [Machine.dx, (sectorDone_nextSector moved_readSector s rest).rdx]
    have hfill := @filled_filled s.mem s.r12 256 (512 * n) (s.inp s.dx) (by omega)
    have hsize : 512 * (n + 1) = 2 * 256 + 512 * n := by omega
    rw [ih (by omega), hmem, hr12, hdx, hinp, hsize, ← hfill]
    rfl

lemma nextSector_write (s : Machine) (rest : Stream' (BitVec 16)) :
    (nextSector writeSector s rest).mem = s.mem ∧
      (nextSector writeSector s rest).r12 = s.r12 + 512 ∧
      (nextSector writeSector s rest).log = s.log ++ outws s.dx s.mem s.r12 256 := by
  simp only [nextSector, writeSector_eq, Machine.outswed, answered, Machine.push, Machine.dx,
    and_self]

/-- Sectors that are written send the buffer. -/
lemma Passed.write {n : ℕ} {s u : Machine} (h : Passed writeSector n s u) :
    u.mem = s.mem ∧ u.log = s.log ++ outws s.dx s.mem s.r12 (256 * n) := by
  induction h with
  | zero s => simp [outws]
  | @succ n s u v rest _ _ _ ih =>
    obtain ⟨hmem, hr12, hlog⟩ := nextSector_write s rest
    have hdx : (nextSector writeSector s rest).dx = s.dx := by
      simp only [Machine.dx, (sectorDone_nextSector moved_writeSector s rest).rdx]
    obtain ⟨hu, hulog⟩ := ih
    refine ⟨hu.trans hmem, ?_⟩
    rw [hulog, hlog, hmem, hr12, hdx, List.append_assoc, Nat.mul_succ, Nat.add_comm,
      outws_add s.dx s.mem s.r12 256 (256 * n)]
    rfl

/-! ### Whole transfers -/

/-- Once data are requested, one of the next `n` waits finds an error. -/
def ShowsError (n : ℕ) (st : Stream' (BitVec 16)) : Prop :=
  ∀ rest, DrqAwaited drqPolls st rest → SectorFails n rest

variable {cmd : BitVec 8} {fuel : ℕ} {s t : Machine}

/-- A transfer that reports success has moved all its sectors. -/
lemma transfer_passed (hsec : ∀ s, Moved 256 s (sector s))
    (h : transfer cmd sector last fuel s = some t) (ht : t.rax ≠ 0) :
    ∃ rest u fuel' w, DrqAwaited drqPolls (transferStatus s) rest ∧
      Passed sector (sectors s.r8) (loopStart cmd s rest) u ∧ last fuel' u = some w ∧
        transferDone w = some t := by
  rcases transfer_some h with ⟨hrax, -⟩ | ⟨rest, hd, h⟩
  · exact absurd hrax ht
  · obtain ⟨hcount, hne⟩ := loopStart_rcx cmd s rest
    obtain ⟨u, fuel', w, hu, hw⟩ := transferNxtSect_passed hsec h hne ht
    exact ⟨rest, u, fuel', w, hd, hcount ▸ hu, hw⟩

/-- Whatever becomes of a transfer, it programs its request and then only moves words. -/
lemma transfer_words (hsec : ∀ s, Moved 256 s (sector s)) (hlast : OnlyAnswers last)
    (h : transfer cmd sector last fuel s = some t) :
    ∃ ws, t.log = s.log ++ (requested (dataPort s.rdi) s.rsi s.rcx s.r8 cmd ++ ws) ∧
      ∀ w ∈ ws, w.IsWord ((dataPort s.rdi).setWidth 16) := by
  rw [transfer_eq, Option.bind_eq_some_iff] at h
  obtain ⟨w, hw, h⟩ := h
  obtain ⟨b, rest, rfl, -⟩ := call_waitIdeDeviceDrq_some hw
  split at h
  · cases h
    refine ⟨[], ?_, by simp⟩
    simp [answered, prepared, requested]
  · obtain ⟨ws, hlog, hws⟩ := transferNxtSect_words hsec hlast h
    refine ⟨ws, ?_, hws⟩
    rw [hlog]
    simp [answered, prepared, requested]

/-- The registers and the memory at the entry of the loop. -/
lemma loopStart_rest (cmd : BitVec 8) (s : Machine) (rest : Stream' (BitVec 16)) :
    (loopStart cmd s rest).mem = s.mem ∧ (loopStart cmd s rest).r12 = s.rdx ∧
      (loopStart cmd s rest).dx = (dataPort s.rdi).setWidth 16 ∧
      (loopStart cmd s rest).inp ((dataPort s.rdi).setWidth 16) =
        s.inp ((dataPort s.rdi).setWidth 16) ∧
      (loopStart cmd s rest).log =
        s.log ++ requested (dataPort s.rdi) s.rsi s.rcx s.r8 cmd := by
  have hstatus : (dataPort s.rdi).setWidth 16 ≠ regPort (dataPort s.rdi) ideStatusCommandReg := by
    simp [regPort, ideStatusCommandReg]
  have hdelay : (dataPort s.rdi).setWidth 16 ≠ regPort (dataPort s.rdi) 0x206 := by
    simp [regPort]
  refine ⟨rfl, rfl, rfl, ?_, ?_⟩
  · simp only [loopStart, answered, prepared, Function.update_of_ne hstatus,
      Function.update_of_ne hdelay, Machine.push]
  · simp only [loopStart, answered, prepared, requested, Machine.push, List.append_assoc]

/-- **What a read leaves.**  The buffer is filled with the words of the data port, and the
device has shown no error. -/
lemma archIdeDeviceRead_filled (h : archIdeDeviceRead fuel s = some t) (ht : t.rax ≠ 0)
    (hn : 512 * sectors s.r8 ≤ 2 ^ 64) :
    t.mem = filled s.mem s.rdx (512 * sectors s.r8) (s.inp ((dataPort s.rdi).setWidth 16)) ∧
      ¬ ShowsError (sectors s.r8) (transferStatus s) := by
  obtain ⟨rest, u, fuel', w, hd, hu, hw, hdone⟩ := transfer_passed moved_readSector h ht
  obtain ⟨hmem, hr12, hdx, hinp, -⟩ := loopStart_rest ideDeviceReadSectCmd s rest
  have hread := hu.read hn
  rw [hmem, hr12, hdx, hinp] at hread
  cases hw
  cases hdone
  refine ⟨hread, fun hshows => ?_⟩
  have hfail := hshows rest hd
  rw [← status_loopStart ideDeviceReadSectCmd s rest, ← Nat.add_zero (sectors s.r8)] at hfail
  cases hu.fails moved_readSector hfail

/-- **What a write leaves.**  The words of the buffer were sent, and the device has shown no
error, not even behind the last of them. -/
lemma archIdeDeviceWrite_sent (h : archIdeDeviceWrite fuel s = some t) (ht : t.rax ≠ 0) :
    t.mem = s.mem ∧
      t.log = s.log ++ (requested (dataPort s.rdi) s.rsi s.rcx s.r8 ideDeviceWriteSectCmd ++
        outws ((dataPort s.rdi).setWidth 16) s.mem s.rdx (256 * sectors s.r8)) ∧
      ¬ ShowsError (sectors s.r8 + 1) (transferStatus s) := by
  obtain ⟨rest, u, fuel', w, hd, hu, hw, hdone⟩ := transfer_passed moved_writeSector h ht
  obtain ⟨hmem, hr12, hdx, -, hlog⟩ := loopStart_rest ideDeviceWriteSectCmd s rest
  obtain ⟨humem, hulog⟩ := hu.write
  rw [hmem] at humem
  rw [hmem, hr12, hdx, hlog, List.append_assoc] at hulog
  obtain ⟨v, rest', hst, rfl⟩ := call_waitIdeDeviceNotBusy_some hw
  cases hdone
  refine ⟨humem, hulog, fun hshows => ?_⟩
  have hfail := hshows rest hd
  rw [← status_loopStart ideDeviceWriteSectCmd s rest] at hfail
  -- the wait behind the last sector has answered 1
  have hok : ¬ HasError v := by
    intro he
    have hzero : answer v = 0 := if_pos he
    refine ht ?_
    simp [answered, hzero]
  cases hu.fails moved_writeSector hfail with
  | now hst' he => exact hok ((hst.unique hst').1 ▸ he)
  | later _ _ h0 => cases h0

end EvtDrivenOs.Ide
