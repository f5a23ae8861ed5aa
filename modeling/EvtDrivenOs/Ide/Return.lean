/-
How the transfers of the IDE driver return to their caller.

The loop over the sectors keeps its counter on the stack while it waits for the device.
If the device reports an error there, the loop is left with the counter still on the
stack, so that the exit takes the counter for the caller's `r12` and the caller's `r12`
for the return address.
-/
import EvtDrivenOs.Ide.Wait

namespace EvtDrivenOs.Ide

open EvtDrivenOs.Lib.X64

/-! ### One sector -/

/-- The sector transfers move 256 words. -/
lemma moved_readSector (s : Machine) : Moved 256 s (readSector s) := by
  have h := Moved.repInsw { s with df := false, rcx := 256, rdi := s.r12 }
  have heq : readSector s = Machine.repInsw { s with df := false, rcx := 256, rdi := s.r12 } := rfl
  rw [heq]
  exact ⟨h.rdx, h.r12, h.rsp, h.stack, h.inp, h.log⟩

lemma moved_writeSector (s : Machine) : Moved 256 s (writeSector s) := by
  have h := Moved.loop_outsw (s := { s with df := false, rcx := 256, rsi := s.r12 }) (by simp)
  have heq : writeSector s =
      Machine.loop { s with df := false, rcx := 256, rsi := s.r12 } .outsw := rfl
  rw [heq]
  exact ⟨h.rdx, h.r12, h.rsp, h.stack, h.inp, h.log⟩

variable {sector : Machine → Machine} {last : ℕ → Machine → Option Machine}

/-- The state after one sector for which the wait left `rest` unread. -/
def nextSector (sector : Machine → Machine) (s : Machine) (rest : Stream' (BitVec 16)) : Machine :=
  let t := sector (answered (s.push s.rcx) 1 rest)
  { t with
    inp := Function.update t.inp (regPort t.rdx 0x206) ((t.inp (regPort t.rdx 0x206)).drop 4)
    r12 := t.r12 + 512
    rcx := t.top - 1
    stack := t.stack.tail
    rsp := t.rsp + 8 }

/-- What a sector leaves behind, with the words it moved. -/
structure SectorDone (s t : Machine) (rest : Stream' (BitVec 16)) : Prop where
  rcx : t.rcx = s.rcx - 1
  rdx : t.rdx = s.rdx
  rsp : t.rsp = s.rsp
  stack : t.stack = s.stack
  status : status t = rest
  log : ∃ ws, t.log = s.log ++ ws ∧ ws.length = 256 ∧ ∀ w ∈ ws, w.IsWord s.dx

lemma sectorDone_nextSector (hsec : ∀ s, Moved 256 s (sector s)) (s : Machine)
    (rest : Stream' (BitVec 16)) : SectorDone s (nextSector sector s rest) rest := by
  have h := hsec (answered (s.push s.rcx) 1 rest)
  rw [nextSector]
  generalize sector (answered (s.push s.rcx) 1 rest) = t at h
  obtain ⟨hrdx, -, hrsp, hstack, hinp, hlog⟩ := h
  refine ⟨?_, hrdx, ?_, ?_, ?_, hlog⟩
  · simp [hstack, answered]
  · simp [hrsp, answered]
  · simp [hstack, answered]
  · have hdelay : regPort s.rdx ideStatusCommandReg ≠ regPort s.rdx 0x206 := by
      simp [regPort, ideStatusCommandReg]
    have hdata : regPort s.rdx ideStatusCommandReg ≠ s.dx := by
      simp [regPort, ideStatusCommandReg]
    have hrdx : t.rdx = s.rdx := hrdx
    simp only [status, hrdx]
    rw [Function.update_of_ne hdelay, hinp _ hdata]
    simp only [answered, Machine.push, Function.update_self]

lemma transferNxtSect_succ (hsec : ∀ s, Moved 256 s (sector s)) {fuel : ℕ} {s : Machine}
    {v : BitVec 16} {rest : Stream' (BitVec 16)}
    (h : (s.push s.rcx).call 9 (waitIdeDeviceNotBusy fuel) =
      some (answered (s.push s.rcx) (answer v) rest)) :
    transferNxtSect sector last (fuel + 1) s =
      if HasError v then transferDone (answered (s.push s.rcx) 0 rest)
      else if s.rcx - 1 ≠ 0 then transferNxtSect sector last fuel (nextSector sector s rest)
      else (last fuel (nextSector sector s rest)).bind transferDone := by
  have hrcx := (sectorDone_nextSector hsec s rest).rcx
  rw [transferNxtSect, h]
  by_cases he : HasError v
  · have hal : (answered (s.push s.rcx) 0 rest).al = 0 := by simp [answered]
    rw [if_pos he, answer, if_pos he]
    simp only [Option.bind_eq_bind, Option.bind_some, if_pos hal]
  · have hal : (answered (s.push s.rcx) 1 rest).al ≠ 0 := by simp [answered]
    rw [if_neg he, answer, if_neg he]
    simp only [Option.bind_eq_bind, Option.bind_some, if_neg hal, call_ideAtaSpecDelay]
    rw [← hrcx]
    simp only [nextSector, Machine.popRcx, Machine.drop, Machine.top, Machine.decRcx, regPort,
      Machine.dx]
    rfl

/-! ### The loop over the sectors -/

/-- One of the waits before the next `n` sectors finds an error, where `st` are the values
of the status register. -/
inductive SectorFails : ℕ → Stream' (BitVec 16) → Prop
  | now {n : ℕ} {st rest : Stream' (BitVec 16)} {v : BitVec 16} (hst : Settles st v rest)
      (he : HasError v) : SectorFails (n + 1) st
  | later {n : ℕ} {st rest : Stream' (BitVec 16)} {v : BitVec 16} (hst : Settles st v rest)
      (he : ¬ HasError v) (h : SectorFails n rest) : SectorFails (n + 1) st

/-- The loop was left at its end: the caller's `r12` is back, and `n` sectors were
moved. -/
structure Transferred (n : ℕ) (s t : Machine) : Prop where
  r12 : t.r12 = s.top
  rsp : t.rsp = s.rsp + 8
  stack : t.stack = s.stack.tail
  log : ∃ ws, t.log = s.log ++ ws ∧ ws.length = 256 * n ∧ ∀ w ∈ ws, w.IsWord s.dx

/-- What follows the last sector does no more than a wait. -/
def OnlyAnswers (last : ℕ → Machine → Option Machine) : Prop :=
  ∀ fuel s t, last fuel s = some t → ∃ b rest, t = answered s b rest

/-- The end of the loop, with what the last wait leaves behind. -/
lemma transferred_done (s : Machine) (b : BitVec 8) (rest : Stream' (BitVec 16)) :
    ∃ t, transferDone (answered s b rest) = some t ∧ Transferred 0 s t :=
  ⟨_, rfl, rfl, rfl, rfl, [], by simp [answered], rfl, by simp⟩

/-- One more sector before the others. -/
lemma SectorDone.cons {n : ℕ} {s u t : Machine} {rest : Stream' (BitVec 16)}
    (hsu : SectorDone s u rest) (hut : Transferred n u t) : Transferred (n + 1) s t := by
  obtain ⟨ws, hlog, hlen, hws⟩ := hsu.log
  obtain ⟨ws', hlog', hlen', hws'⟩ := hut.log
  have hdx : u.dx = s.dx := by simp only [Machine.dx, hsu.rdx]
  refine ⟨?_, ?_, ?_, ws ++ ws', ?_, ?_, ?_⟩
  · rw [hut.r12, Machine.top, hsu.stack, Machine.top]
  · rw [hut.rsp, hsu.rsp]
  · rw [hut.stack, hsu.stack]
  · rw [hlog', hlog, List.append_assoc]
  · rw [List.length_append, hlen, hlen']
    omega
  · intro w hw
    rcases List.mem_append.mp hw with hw | hw
    · exact hws w hw
    · exact hdx ▸ hws' w hw

/-- A run of the loop begins with a wait that ends. -/
lemma wait_of_transferNxtSect {fuel : ℕ} {s t : Machine}
    (h : transferNxtSect sector last (fuel + 1) s = some t) :
    ∃ v rest, Settles (status s) v rest ∧
      (s.push s.rcx).call 9 (waitIdeDeviceNotBusy fuel) =
        some (answered (s.push s.rcx) (answer v) rest) := by
  rw [transferNxtSect, Option.bind_eq_bind, Option.bind_eq_some_iff] at h
  obtain ⟨w, hw, -⟩ := h
  obtain ⟨v, rest, hst, rfl⟩ := call_waitIdeDeviceNotBusy_some hw
  exact ⟨v, rest, hst, hw⟩

/-- A run of the loop ends where it should, or an error was found and the loop was left
with its counter on the stack. -/
lemma transferNxtSect_some (hsec : ∀ s, Moved 256 s (sector s)) (hlast : OnlyAnswers last)
    {fuel : ℕ} {s t : Machine} (h : transferNxtSect sector last fuel s = some t) (hs : s.rcx ≠ 0) :
    SectorFails s.rcx.toNat (status s) ∧ t.rax = 0 ∨ Transferred s.rcx.toNat s t := by
  induction fuel generalizing s with
  | zero => cases h
  | succ fuel ih =>
    obtain ⟨v, rest, hst, hwait⟩ := wait_of_transferNxtSect h
    have hdone := sectorDone_nextSector hsec s rest
    rw [transferNxtSect_succ hsec hwait] at h
    rw [← toNat_sub_one hs]
    split at h
    case isTrue he =>
      cases h
      exact .inl ⟨.now hst he, by simp [answered]⟩
    case isFalse he =>
      split at h
      case isTrue hne =>
        rw [← hdone.rcx] at hne ⊢
        rcases ih h hne with ⟨hfail, hrax⟩ | htr
        · rw [hdone.status] at hfail
          exact .inl ⟨.later hst he hfail, hrax⟩
        · exact .inr (hdone.cons htr)
      case isFalse hone =>
        obtain ⟨w, hw, h⟩ := Option.bind_eq_some_iff.mp h
        obtain ⟨b, rest', rfl⟩ := hlast _ _ _ hw
        obtain ⟨t', ht', htr⟩ := transferred_done (nextSector sector s rest) b rest'
        cases h.symm.trans ht'
        rw [not_not.mp hone]
        exact .inr (hdone.cons htr)

/-- An error in the loop leads to the exit with the counter on the stack. -/
lemma transferNxtSect_of_fails (last : ℕ → Machine → Option Machine)
    (hsec : ∀ s, Moved 256 s (sector s)) {n : ℕ} {st : Stream' (BitVec 16)}
    (hfail : SectorFails n st) :
    ∃ m, ∀ fuel ≥ m, ∀ s : Machine, s.rcx.toNat = n → status s = st →
      ∃ t, transferNxtSect sector last fuel s = some t ∧ t.rsp = s.rsp := by
  induction hfail with
  | now hst he =>
    obtain ⟨m, hm⟩ := call_waitIdeDeviceNotBusy_of_settles hst
    refine ⟨m + 1, fun fuel hf s hn hs => ?_⟩
    obtain ⟨fuel, rfl⟩ : ∃ k, fuel = k + 1 := ⟨fuel - 1, by omega⟩
    rw [transferNxtSect_succ hsec (hm fuel (by omega) (s.push s.rcx) 9 hs), if_pos he]
    exact ⟨_, rfl, by simp [answered]⟩
  | @later n st rest v hst he hfail ih =>
    obtain ⟨m, hm⟩ := call_waitIdeDeviceNotBusy_of_settles hst
    obtain ⟨m', hm'⟩ := ih
    refine ⟨max m m' + 1, fun fuel hf s hn hs => ?_⟩
    obtain ⟨fuel, rfl⟩ : ∃ k, fuel = k + 1 := ⟨fuel - 1, by omega⟩
    -- one sector more, and the error is behind it
    have hdone := sectorDone_nextSector hsec s rest
    have hs0 : s.rcx ≠ 0 := fun h => by simp [h] at hn
    have hcount : (s.rcx - 1).toNat = n := by
      have := toNat_sub_one hs0
      omega
    have hne : s.rcx - 1 ≠ 0 := by
      intro h
      rw [h] at hcount
      cases hcount
      cases hfail
    rw [transferNxtSect_succ hsec (hm fuel (by omega) (s.push s.rcx) 9 hs), if_neg he, if_pos hne,
      ← hdone.rsp]
    exact hm' fuel (by omega) _ (hdone.rcx ▸ hcount) hdone.status

/-! ### A whole transfer -/

/-- The sectors that a count stands for. -/
def sectors (count : BitVec 64) : ℕ := if count = 0 then 256 else count.toNat

/-- A routine that is entered in the state `s` returns in the state `t`: the caller's
return address is on top of the stack, and `rsp` and `r12` are the caller's. -/
structure Returns (s t : Machine) : Prop where
  /-- The return address is on the top of the stack. -/
  top : t.stack.head? = s.stack.head?
  /-- The stack pointer points to it. -/
  rsp : t.rsp = s.rsp
  r12 : t.r12 = s.r12

/-- The state in which a transfer enters its loop, or its wait for data. -/
def prepared (cmd : BitVec 8) (s : Machine) : Machine :=
  let data := dataPort s.rdi
  { s.push s.r12 with
    rax := setLow8 1 cmd
    rdx := data
    rdi := setLow16 s.rdi ideStatusCommandReg
    r12 := s.rdx
    inp := Function.update s.inp (regPort data 0x206) ((s.inp (regPort data 0x206)).drop 4)
    log := s.log ++ programmed data s.rsi s.rcx s.r8 ++
      [.out (regPort data ideStatusCommandReg) cmd] }

lemma transfer_eq (cmd : BitVec 8) (fuel : ℕ) (s : Machine) :
    transfer cmd sector last fuel s =
      ((prepared cmd s).call 13 (waitIdeDeviceDrq fuel)).bind fun t =>
        if t.al = 0 then transferDone t
        else transferNxtSect sector last fuel
          { t with rcx := if t.r8 ≠ 0 then t.r8 else 256 } := by
  simp [transfer, call_ideDeviceSectorsIo, call_writeIdeReg, prepared, regPort]
  refine congrArg _ (funext fun t => ?_)
  by_cases hr : t.r8 = 0#64
  · simp [hr]
  · simp [hr]

/-- The state in which the loop is entered. -/
def loopStart (cmd : BitVec 8) (s : Machine) (rest : Stream' (BitVec 16)) : Machine :=
  { answered (prepared cmd s) 1 rest with rcx := if s.r8 ≠ 0 then s.r8 else 256 }

lemma loopStart_rcx (cmd : BitVec 8) (s : Machine) (rest : Stream' (BitVec 16)) :
    (loopStart cmd s rest).rcx.toNat = sectors s.r8 ∧ (loopStart cmd s rest).rcx ≠ 0 := by
  by_cases hr : s.r8 = 0
  · simp [loopStart, sectors, hr]
  · have hr' : s.r8 ≠ 0#64 := hr
    simp [loopStart, sectors, hr']

lemma status_loopStart (cmd : BitVec 8) (s : Machine) (rest : Stream' (BitVec 16)) :
    status (loopStart cmd s rest) = rest := by
  simp [status, loopStart, answered]

/-- The values that the status register gives a transfer. -/
def transferStatus (s : Machine) : Stream' (BitVec 16) :=
  s.inp (regPort (dataPort s.rdi) ideStatusCommandReg)

lemma status_prepared (cmd : BitVec 8) (s : Machine) :
    status (prepared cmd s) = transferStatus s := by
  have hdelay : regPort (dataPort s.rdi) ideStatusCommandReg ≠ regPort (dataPort s.rdi) 0x206 := by
    simp [regPort, ideStatusCommandReg]
  simp only [status, prepared, transferStatus, Function.update_of_ne hdelay]

/-- The request for data is answered, and then one of the waits before a sector finds an
error. -/
def FailsInTransfer (s : Machine) : Prop :=
  ∃ rest, DrqAwaited drqPolls (transferStatus s) rest ∧ SectorFails (sectors s.r8) rest

/-- A run of a transfer returns without having moved anything, or it enters the loop. -/
lemma transfer_some {cmd : BitVec 8} {fuel : ℕ} {s t : Machine}
    (h : transfer cmd sector last fuel s = some t) :
    (t.rax = 0 ∧ Returns s t) ∨ ∃ rest, DrqAwaited drqPolls (transferStatus s) rest ∧
      transferNxtSect sector last fuel (loopStart cmd s rest) = some t := by
  rw [transfer_eq, Option.bind_eq_some_iff] at h
  obtain ⟨w, hw, h⟩ := h
  obtain ⟨b, rest, rfl, hcase⟩ := call_waitIdeDeviceDrq_some hw
  rw [status_prepared] at hcase
  rcases hcase with ⟨rfl, hd⟩ | rfl
  · have hal : (answered (prepared cmd s) 1 rest).al ≠ 0 := by simp [answered]
    rw [if_neg hal] at h
    exact .inr ⟨rest, hd, h⟩
  · have hal : (answered (prepared cmd s) 0 rest).al = 0 := by simp [answered]
    rw [if_pos hal] at h
    cases h
    refine .inl ⟨by simp [answered], ?_, ?_, ?_⟩
    · simp [answered, prepared]
    · simp [answered, prepared]
    · simp [answered, prepared]

/-- The loop's exit is the routine's: what it restores is the caller's. -/
lemma Transferred.returns {n : ℕ} {cmd : BitVec 8} {s t : Machine} {rest : Stream' (BitVec 16)}
    (h : Transferred n (loopStart cmd s rest) t) : Returns s t := by
  refine ⟨?_, ?_, ?_⟩
  · simp [h.stack, loopStart, answered, prepared]
  · simp [h.rsp, loopStart, answered, prepared]
  · simp [h.r12, loopStart, answered, prepared]

/-- A transfer returns to its caller if and only if no error is found in its loop. -/
lemma transfer_returns_iff (hsec : ∀ s, Moved 256 s (sector s)) (hlast : OnlyAnswers last)
    (cmd : BitVec 8) (s : Machine) :
    (∀ fuel t, transfer cmd sector last fuel s = some t → Returns s t) ↔ ¬ FailsInTransfer s := by
  constructor
  · rintro h ⟨rest, hd, hfail⟩
    obtain ⟨m, hm⟩ := call_waitIdeDeviceDrq_of_awaited hd
    obtain ⟨m', hm'⟩ := transferNxtSect_of_fails last hsec hfail
    obtain ⟨t, ht, hrsp⟩ := hm' (max m m') (le_max_right _ _) (loopStart cmd s rest)
      (loopStart_rcx cmd s rest).1 (status_loopStart cmd s rest)
    have hrun : transfer cmd sector last (max m m') s = some t := by
      have hal : (answered (prepared cmd s) 1 rest).al ≠ 0 := by simp [answered]
      rw [transfer_eq, hm _ (le_max_left _ _) _ _ (status_prepared cmd s), Option.bind_some,
        if_neg hal]
      exact ht
    have hret := (h _ _ hrun).rsp
    rw [hrsp] at hret
    simp only [loopStart, answered, prepared, Machine.push] at hret
    bv_omega
  · intro hfail fuel t h
    rcases transfer_some h with ⟨-, hret⟩ | ⟨rest, hd, h⟩
    · exact hret
    · obtain ⟨hcount, hne⟩ := loopStart_rcx cmd s rest
      rcases transferNxtSect_some hsec hlast h hne with ⟨hf, -⟩ | htr
      · rw [hcount, status_loopStart] at hf
        exact absurd ⟨rest, hd, hf⟩ hfail
      · exact htr.returns

lemma onlyAnswers_read : OnlyAnswers fun _ s => some (s.setAl 1) := by
  rintro fuel s t h
  cases h
  exact ⟨1, status s, by simp [answered]⟩

lemma onlyAnswers_write : OnlyAnswers fun fuel s => s.call 14 (waitIdeDeviceNotBusy fuel) := by
  intro fuel s t h
  obtain ⟨v, rest, -, ht⟩ := call_waitIdeDeviceNotBusy_some h
  exact ⟨_, rest, ht⟩

/-- Whatever the device answers: a transfer that reaches its `ret` finds its caller's
return address there, with the caller's `rsp` and `r12`, if and only if no error is found
before one of its sectors. -/
theorem ideTransfer_returns_iff (s : Machine) :
    ((∀ fuel t, archIdeDeviceRead fuel s = some t → Returns s t) ↔ ¬ FailsInTransfer s) ∧
      ((∀ fuel t, archIdeDeviceWrite fuel s = some t → Returns s t) ↔ ¬ FailsInTransfer s) :=
  ⟨transfer_returns_iff moved_readSector onlyAnswers_read _ s,
    transfer_returns_iff moved_writeSector onlyAnswers_write _ s⟩

/-- One sector is read from a drive that requests data and then aborts. -/
def aborted : Machine where
  rax := 0
  rbx := 0
  rcx := 0
  rdx := 0
  rsi := 0
  rdi := 0
  r8 := 1
  r12 := 0
  rsp := 0
  df := false
  stack := [0x1000]
  mem := fun _ => 0
  inp := fun _ => Stream'.cons 0x58 (Stream'.const 0x51)
  log := []

theorem ideDeviceRead_lost :
    ¬ ∀ fuel t, archIdeDeviceRead fuel aborted = some t → Returns aborted t := by
  intro h
  refine (transfer_returns_iff moved_readSector onlyAnswers_read _ _).mp h
    ⟨Stream'.const 0x51, ?_, ?_⟩
  · exact @DrqAwaited.now _ (Stream'.cons 0x58 (Stream'.const 0x51)) (by decide)
  · exact .now (.now (by decide)) (by decide)

end EvtDrivenOs.Ide
