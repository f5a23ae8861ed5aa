/-
The management interface of the PHY: `read_phyReg`, `write_phyReg` and the handler
`on_phyIRQ` of `xtemac_phy.c`.

A register is accessed by a transaction of the MDIO controller.  The driver checks that
the controller is ready, clears the completion flag and sees it cleared, starts the
transaction, waits for the flag, and fetches the data.  The handler makes such an access
too, and may preempt another at any of these steps.

If the controller is not ready then, the handler reads nothing and works with a local that
is not initialised.  Otherwise its own transaction leaves the completion flag set and its
own data in the register, where the preempted read takes them for the end of its own
transaction.  `Undisturbed` excludes both, and `phyReg_own` proves that nothing else mixes
the transactions.  A handler that runs after the flag was cleared and before that is seen
does no harm to the data, but the preempted call does not return: `cleared_spins`.
-/
import EvtDrivenOs.Basic
import EvtDrivenOs.Lib.Run
import EvtDrivenOs.Ethernet.Phy

namespace EvtDrivenOs.Ethernet

open EvtDrivenOs.Lib

/-! ### The controller -/

/-- The operation of a transaction, with the data of a write. -/
inductive MdioOp
  | mdioRead
  | mdioWrite (wdata : BitVec 16)
deriving DecidableEq, Repr

/-- A transaction; transactions are numbered in the order in which they start. -/
structure Transaction where
  num : ℕ
  op : MdioOp
  phyRegAddr : BitVec 5
deriving DecidableEq, Repr

/-- The read data, with the number of the transaction that has read it and the register
that it is from. -/
structure ReadData where
  rdata : BitVec 16
  num : ℕ
  phyRegAddr : BitVec 5
deriving DecidableEq, Repr

/-- The controller with its completion flag; `started` counts the transactions. -/
structure Mdio where
  running : Option Transaction
  mdiocIrq : Bool
  rdr : ReadData
  wdr : BitVec 16
  started : ℕ
deriving DecidableEq, Repr

namespace Mdio

variable (m : Mdio)

/-- `mdio_ready`, of the control register and of the read data register. -/
def mdioReady : Bool := m.running.isNone

/-- `initiate` with an operation and an address: a controller that is not ready ignores
it. -/
def initiate (op : MdioOp) (phyRegAddr : BitVec 5) : Mdio :=
  if m.mdioReady then
    { m with running := some ⟨m.started, op, phyRegAddr⟩, started := m.started + 1 }
  else m

/-- The transaction completes; a register that is read contains `value`. -/
def complete (value : BitVec 16) : Mdio :=
  match m.running with
  | none => m
  | some t =>
    { m with
      running := none
      mdiocIrq := true
      rdr := match t.op with
        | .mdioRead => ⟨value, t.num, t.phyRegAddr⟩
        | .mdioWrite _ => m.rdr }

end Mdio

/-! ### The driver -/

/-- A call of `read_phyReg` or `write_phyReg`. -/
inductive PhyCall
  | read (addr : BitVec 8)
  | write (addr : BitVec 8) (regv : BitVec 16)
deriving DecidableEq, Repr

/-- The next access of a call: the check of the controller, the write that clears the
completion flag, the poll that sees it cleared, the write data, the start of the
transaction, the poll for completion, the fetch.  From the start on, a call knows the number
of its transaction, if it has one. -/
inductive Access
  | ready
  | clear
  | cleared
  | wdata
  | initiate
  | completed (num : Option ℕ)
  | fetch (num : Option ℕ)
deriving DecidableEq, Repr

/-- How a call returns: false, true after a write, or true after a read that has stored
`data`, where its own transaction was `num`. -/
inductive Ret
  | refused
  | wrote
  | stored (num : Option ℕ) (data : ReadData)
deriving DecidableEq, Repr

/-- One access of a call: where it goes on, or how it returns. -/
def access (c : PhyCall) (m : Mdio) : Access → Mdio × (Access ⊕ Ret)
  | .ready => (m, if m.mdioReady then .inl .clear else .inr .refused)
  | .clear => ({ m with mdiocIrq := false }, .inl .cleared)
  | .cleared =>
    (m, .inl (if m.mdiocIrq then .cleared
      else match c with
        | .read _ => .initiate
        | .write _ _ => .wdata))
  | .wdata =>
    (match c with
      | .read _ => m
      | .write _ regv => { m with wdr := regv }, .inl .initiate)
  | .initiate =>
    (match c with
      | .read addr => m.initiate .mdioRead (addr.setWidth 5)
      | .write addr _ => m.initiate (.mdioWrite m.wdr) (addr.setWidth 5),
      .inl (.completed (if m.mdioReady then some m.started else none)))
  | .completed num =>
    (m, if m.mdiocIrq then
        match c with
        | .read _ => .inl (.fetch num)
        | .write _ _ => .inr .wrote
      else .inl (.completed num))
  | .fetch num => (m, .inr (.stored num m.rdr))

/-- The call has not yet seen the completion flag cleared. -/
def Access.early : Access → Bool
  | .ready | .clear | .cleared => true
  | _ => false

/-! ### The driver under interrupts -/

/-- What the calls and the handler have come to, in the order of their returns: a call with
its result, or the handler with the result of its read and the link signal that it sets. -/
inductive Outcome
  | returned (c : PhyCall) (r : Ret)
  | handled (r : Ret) (linkSig : Bool)
deriving DecidableEq, Repr

/-- The controller, the call of the main context, the local and the call of the handler,
and what they leave behind. -/
structure PhyBus where
  mdio : Mdio
  main : Option (PhyCall × Access) := none
  irq : Option (BitVec 16 × Access) := none
  linkSig : Bool := false
  raised : List Signal := []
  log : List Outcome := []
deriving DecidableEq, Repr

/-- The main context makes a call; the context that runs makes its next access; an
interrupt, where the local of the handler contains `stack`; the transaction completes. -/
inductive BusEvent
  | call (c : PhyCall)
  | step
  | irq (stack : BitVec 16)
  | complete (value : BitVec 16)
deriving DecidableEq, Repr

section Step

variable (s : PhyBus)

/-- `on_phyIRQ` after its read. -/
def onPhyIrqEnd (stack : BitVec 16) (r : Ret) : PhyBus :=
  let phy := match r with
    | .stored _ data => data.rdata
    | _ => stack
  { s with
    irq := none
    linkSig := isrLinkSig phy
    raised := s.raised ++ [.sigint]
    log := s.log ++ [.handled r (isrLinkSig phy)] }

/-- The handler makes its next access. -/
def irqStep (stack : BitVec 16) (a : Access) : PhyBus :=
  let (m, next) := access (.read isrAddr) s.mdio a
  match next with
  | .inl a' => { s with mdio := m, irq := some (stack, a') }
  | .inr r => onPhyIrqEnd { s with mdio := m } stack r

/-- The main context makes its next access. -/
def mainStep (c : PhyCall) (a : Access) : PhyBus :=
  let (m, next) := access c s.mdio a
  match next with
  | .inl a' => { s with mdio := m, main := some (c, a') }
  | .inr r => { s with mdio := m, main := none, log := s.log ++ [.returned c r] }

/-- One event.  The main context waits while the handler runs, and the handler is not
interrupted. -/
def busStep : BusEvent → PhyBus
  | .call c =>
    match s.irq, s.main with
    | none, none => { s with main := some (c, .ready) }
    | _, _ => s
  | .step =>
    match s.irq, s.main with
    | some (stack, a), _ => irqStep s stack a
    | none, some (c, a) => mainStep s c a
    | none, none => s
  | .irq stack =>
    match s.irq with
    | none => { s with irq := some (stack, .ready) }
    | some _ => s
  | .complete value => { s with mdio := s.mdio.complete value }

end Step

/-! ### Transactions do not mix -/

/-- A read that returns true has stored what its own transaction has read of the register,
and the handler takes the link signal from the interrupt sources that it has read. -/
def Outcome.Own : Outcome → Prop
  | .returned (.read addr) (.stored num data) =>
    num = some data.num ∧ data.phyRegAddr = addr.setWidth 5
  | .returned _ _ => True
  | .handled r linkSig =>
    ∃ data, r = .stored (some data.num) data ∧ data.phyRegAddr = isrAddr.setWidth 5 ∧
      linkSig = isrLinkSig data.rdata

/-- A call of the main context reads a register, and is between the poll that sees the
completion flag cleared and the fetch. -/
def PhyBus.fetching (s : PhyBus) : Bool :=
  match s.main with
  | some (.read _, a) => !a.early
  | _ => false

/-- The handler is about to check the controller. -/
def PhyBus.checking (s : PhyBus) : Bool :=
  match s.irq with
  | some (_, a) => a = .ready
  | none => false

/-- The steps that cannot mix transactions: no interrupt falls into a read that is
fetching, and the handler's check finds the controller ready. -/
def BusUndisturbed (s : PhyBus) : BusEvent → Prop
  | .irq _ => s.fetching = false
  | .step => s.checking = true → s.mdio.mdioReady = true
  | _ => True

instance (s : PhyBus) : ∀ e, Decidable (BusUndisturbed s e)
  | .irq _ => inferInstanceAs (Decidable (_ = false))
  | .step => inferInstanceAs (Decidable (_ → _))
  | .call _ => isTrue trivial
  | .complete _ => isTrue trivial

/-! ### What a read knows of the controller -/

/-- The read data are those of transaction `num`, of register `addr`. -/
def Mdio.Holds (m : Mdio) (num : ℕ) (addr : BitVec 5) : Prop :=
  m.running = none ∧ m.rdr.num = num ∧ m.rdr.phyRegAddr = addr

/-- What an undisturbed read of `addr` relies on at its next access. -/
def ReadKnows (m : Mdio) (addr : BitVec 8) : Access → Prop
  | .ready => True
  | .clear | .cleared => m.running = none
  | .wdata => False
  | .initiate => m.running = none ∧ m.mdiocIrq = false
  | .completed num =>
    ∃ n, num = some n ∧
      (m.running = some ⟨n, .mdioRead, addr.setWidth 5⟩ ∧ m.mdiocIrq = false ∨
        m.Holds n (addr.setWidth 5))
  | .fetch num => ∃ n, num = some n ∧ m.Holds n (addr.setWidth 5)

/-- The same for the result of an access. -/
def ReadLeaves (m : Mdio) (addr : BitVec 8) : Access ⊕ Ret → Prop
  | .inl a => ReadKnows m addr a
  | .inr .refused => m.mdioReady = false
  | .inr .wrote => False
  | .inr (.stored num data) =>
    m.running = none ∧ num = some data.num ∧ data.phyRegAddr = addr.setWidth 5

variable {m : Mdio} {addr : BitVec 8} {a : Access}

/-- Only the check of the controller refuses a call. -/
lemma access_refused {c : PhyCall} (h : (access c m a).2 = .inr .refused) :
    a = .ready ∧ m.mdioReady = false := by
  cases a with
  | ready =>
    refine ⟨rfl, Bool.eq_false_iff.2 fun hr => ?_⟩
    simp [access, hr] at h
  | clear => cases h
  | cleared => cases h
  | wdata => cases h
  | initiate => cases h
  | completed num =>
    cases hi : m.mdiocIrq <;> cases c <;> simp [access, hi] at h
  | fetch num => cases h

/-- The accesses of a read that nothing disturbs. -/
lemma ReadKnows.access (h : ReadKnows m addr a) :
    ReadLeaves (access (.read addr) m a).1 addr (access (.read addr) m a).2 := by
  cases a with
  | ready =>
    simp only [Ethernet.access]
    split
    · next hr => exact Option.isNone_iff_eq_none.1 hr
    · next hr => exact Bool.eq_false_iff.2 hr
  | clear => exact h
  | cleared =>
    simp only [Ethernet.access]
    split
    · exact h
    · next hi => exact ⟨h, Bool.eq_false_iff.2 hi⟩
  | wdata => exact h.elim
  | initiate =>
    have hr : m.mdioReady = true := Option.isNone_iff_eq_none.2 h.1
    simp only [Ethernet.access, Mdio.initiate, hr, if_true]
    exact ⟨m.started, rfl, .inl ⟨rfl, h.2⟩⟩
  | completed num =>
    obtain ⟨n, rfl, hn⟩ := h
    simp only [Ethernet.access]
    split
    · next hi => exact ⟨n, rfl, hn.resolve_left fun h => Bool.noConfusion (h.2.symm.trans hi)⟩
    · exact ⟨n, rfl, hn⟩
  | fetch num =>
    obtain ⟨n, rfl, hrun, hnum, haddr⟩ := h
    exact ⟨hrun, congrArg some hnum.symm, haddr⟩

lemma Mdio.Holds.complete {num : ℕ} {addr : BitVec 5} (h : m.Holds num addr)
    (value : BitVec 16) : (m.complete value).Holds num addr := by
  rw [Mdio.complete, h.1]
  exact h

/-- The completion of the transaction that a read waits for. -/
lemma ReadKnows.complete (h : ReadKnows m addr a) (value : BitVec 16) :
    ReadKnows (m.complete value) addr a := by
  -- without a running transaction nothing completes
  have hnone : m.running = none → m.complete value = m := fun hrun => by
    rw [Mdio.complete, hrun]
  cases a with
  | ready => trivial
  | clear => rw [hnone h]; exact h
  | cleared => rw [hnone h]; exact h
  | wdata => exact h.elim
  | initiate => rw [hnone h.1]; exact h
  | completed num =>
    obtain ⟨n, rfl, ⟨hrun, -⟩ | hn⟩ := h
    · refine ⟨n, rfl, .inr ?_⟩
      rw [Mdio.complete, hrun]
      exact ⟨rfl, rfl, rfl⟩
    · exact ⟨n, rfl, .inr (hn.complete value)⟩
  | fetch num =>
    obtain ⟨n, rfl, hn⟩ := h
    exact ⟨n, rfl, hn.complete value⟩

/-! ### The invariant of a run -/

/-- The handler's read and, while the handler does not run, that of the main context know
what they rely on; a read that waits for the handler has not yet started; and what has
returned so far is its own. -/
structure BusInv (s : PhyBus) : Prop where
  irq : ∀ stack a, s.irq = some (stack, a) → ReadKnows s.mdio isrAddr a
  main : ∀ addr a, s.irq = none → s.main = some (.read addr, a) → ReadKnows s.mdio addr a
  waits : ∀ addr a, s.irq ≠ none → s.main = some (.read addr, a) → a.early = true
  log : ∀ o ∈ s.log, o.Own

lemma Access.readKnows (h : a.early = true) (hm : m.running = none) : ReadKnows m addr a := by
  cases a with
  | ready => trivial
  | clear => exact hm
  | cleared => exact hm
  | wdata => exact Bool.noConfusion h
  | initiate => exact Bool.noConfusion h
  | completed num => exact Bool.noConfusion h
  | fetch num => exact Bool.noConfusion h

variable {s : PhyBus}

lemma PhyBus.early (hm : s.main = some (.read addr, a)) (hf : s.fetching = false) :
    a.early = true := by
  rw [PhyBus.fetching, hm] at hf
  simpa using hf

/-- The handler makes an access. -/
lemma BusInv.irqStep {stack : BitVec 16} (h : BusInv s) (hi : s.irq = some (stack, a))
    (he : BusUndisturbed s .step) : BusInv (irqStep s stack a) := by
  have hl := (h.irq stack a hi).access
  have hwait : ∀ addr a, s.main = some (.read addr, a) → a.early = true := fun addr a =>
    h.waits addr a (by rw [hi]; exact Option.some_ne_none _)
  have hready : a = .ready → s.mdio.mdioReady = true := fun ha =>
    he (by rw [PhyBus.checking, hi, ha]; rfl)
  rw [Ethernet.irqStep]
  rcases hacc : access (.read isrAddr) s.mdio a with ⟨m, a' | r⟩
  · rw [hacc] at hl
    exact
      { irq := by
          rintro _ _ ⟨⟩
          exact hl
        main := nofun
        waits := fun addr a _ => hwait addr a
        log := h.log }
  · rw [hacc] at hl
    cases r with
    | refused =>
      -- an undisturbed handler finds the controller ready
      obtain ⟨ha, hbusy⟩ := access_refused (congrArg Prod.snd hacc)
      exact absurd (hready ha) (Bool.eq_false_iff.1 hbusy)
    | wrote => exact hl.elim
    | stored num data =>
      obtain ⟨hrun, rfl, haddr⟩ := hl
      exact
        { irq := nofun
          main := fun addr a _ hmain => Access.readKnows (hwait addr a hmain) hrun
          waits := fun _ _ hne => absurd rfl hne
          log := by
            intro o ho
            rcases List.mem_append.1 ho with ho | ho
            · exact h.log o ho
            · obtain rfl := List.mem_singleton.1 ho
              exact ⟨data, rfl, haddr, rfl⟩ }

/-- The main context makes an access. -/
lemma BusInv.mainStep {c : PhyCall} (h : BusInv s) (hi : s.irq = none)
    (hm : s.main = some (c, a)) : BusInv (mainStep s c a) := by
  rw [Ethernet.mainStep]
  rcases hacc : access c s.mdio a with ⟨m, a' | r⟩
  · exact
      { irq := fun _ _ hsome => nomatch hi.symm.trans hsome
        main := by
          rintro addr _ - ⟨⟩
          have hl := (h.main addr a hi hm).access
          rw [hacc] at hl
          exact hl
        waits := fun _ _ hne => absurd hi hne
        log := h.log }
  · refine
      { irq := fun _ _ hsome => nomatch hi.symm.trans hsome
        main := nofun
        waits := fun _ _ hne => absurd hi hne
        log := ?_ }
    intro o ho
    rcases List.mem_append.1 ho with ho | ho
    · exact h.log o ho
    · obtain rfl := List.mem_singleton.1 ho
      cases c with
      | write addr regv => trivial
      | read addr =>
        have hl := (h.main addr a hi hm).access
        rw [hacc] at hl
        cases r with
        | refused => trivial
        | wrote => trivial
        | stored num data => exact hl.2

lemma BusInv.step {e : BusEvent} (h : BusInv s) (he : BusUndisturbed s e) :
    BusInv (busStep s e) := by
  cases e with
  | call c =>
    rw [busStep]
    split
    · next hi hm =>
      exact
        { irq := h.irq
          main := by
            rintro addr _ - ⟨⟩
            trivial
          waits := fun _ _ hne => absurd hi hne
          log := h.log }
    · exact h
  | step =>
    rw [busStep]
    split
    · next hi => exact h.irqStep hi he
    · next hi hm => exact h.mainStep hi hm
    · exact h
  | irq stack =>
    rw [busStep]
    split
    · next hi =>
      exact
        { irq := by
            rintro _ _ ⟨⟩
            trivial
          main := nofun
          waits := fun _ _ _ hm => PhyBus.early hm he
          log := h.log }
    · exact h
  | complete value =>
    exact
      { irq := fun stack a hi => (h.irq stack a hi).complete value
        main := fun addr a hi hm => (h.main addr a hi hm).complete value
        waits := h.waits
        log := h.log }

/-- **Transactions do not mix** in a run of calls and interrupts whose steps are all
undisturbed, from any state of the controller: every read that returned true has stored what
its own transaction has read of its register, and the handler took the link signal from the
interrupt sources each time. -/
theorem phyReg_own (m : Mdio) {evs : List BusEvent}
    (hevs : Admissible busStep BusUndisturbed { mdio := m } evs) :
    ∀ o ∈ (run busStep { mdio := m } evs).log, o.Own := by
  have hstart : BusInv { mdio := m } :=
    { irq := nofun
      main := nofun
      waits := fun _ _ hne => absurd rfl hne
      log := fun _ ho => absurd ho List.not_mem_nil }
  have hinv : BusInv (run busStep { mdio := m } evs) :=
    hevs.invariant (fun _ _ h he => h.step he) hstart
  exact hinv.log

/-- A controller at rest. -/
def mdioIdle : Mdio := ⟨none, false, ⟨0, 0, 0⟩, 0, 0⟩

/-- An interrupt, a read of the status register, and an interrupt during a write. -/
def undisturbedReads : List BusEvent :=
  ([.irq 0, .step, .step, .step, .step, .complete 0x10, .step, .step, .call (.read 1), .step, .step,
    .step, .step, .complete 0x24, .step, .step, .call (.write 0 0x1000), .step, .step,
    .irq 0] : List BusEvent) ++ List.replicate 4 .step ++ [.complete 0x40, .step, .step]

theorem phyReg_own_reads : Outcome.Own (.returned (.read 1) (.stored (some 1) ⟨0x24, 1, 1⟩)) :=
  @phyReg_own mdioIdle undisturbedReads (by decide) _ (by decide)

/-- A read of the status register, 0x24, is interrupted.  When its transaction is running, the
handler finds the controller busy: a link failure that the PHY reports sets no signal.  When
it has completed, the read returns the interrupt sources that the handler has read, 0x10, as
the status. -/
theorem phyReg_mixed :
    let started : List BusEvent := [.call (.read 1), .step, .step, .step, .step]
    let handler : List BusEvent :=
      [.irq 0, .step, .step, .step, .step, .complete 0x10, .step, .step]
    let dropped := (run busStep { mdio := mdioIdle } (started ++ [.irq 0, .step])).log
    let mixed := (run busStep { mdio := mdioIdle }
      (started ++ [.complete 0x24] ++ handler ++ [.step, .step])).log
    (dropped = [.handled .refused false] ∧ ¬ ∀ o ∈ dropped, o.Own) ∧
      (mixed = [.handled (.stored (some 1) ⟨0x10, 1, 29⟩) true,
          .returned (.read 1) (.stored (some 0) ⟨0x10, 1, 29⟩)] ∧
        ¬ ∀ o ∈ mixed, o.Own) := by
  intro started handler dropped mixed
  have hdropped : dropped = [.handled .refused false] := by decide
  have hmixed : mixed = [.handled (.stored (some 1) ⟨0x10, 1, 29⟩) true,
      .returned (.read 1) (.stored (some 0) ⟨0x10, 1, 29⟩)] := by decide
  refine ⟨⟨hdropped, fun h => ?_⟩, ⟨hmixed, fun h => ?_⟩⟩
  · rw [hdropped] at h
    obtain ⟨data, hr, -⟩ := h _ (List.mem_singleton.2 rfl)
    cases hr
  · rw [hmixed] at h
    obtain ⟨hnum, -⟩ := h _ (List.mem_cons_of_mem _ (List.mem_singleton.2 rfl))
    exact absurd hnum (by decide)

/-! ### A call that never returns -/

/-- A call of the handler does not change the completion flag from its start to the check of
the controller, and has seen it set when it fetches. -/
def Access.flagged : Access → Bool
  | .ready | .fetch _ => true
  | _ => false

/-- The flag is set where a call goes on, or when it returns. -/
def Flagged (m : Mdio) : Access ⊕ Ret → Prop
  | .inl a => a.flagged = true → m.mdiocIrq = true
  | .inr _ => m.mdiocIrq = true

lemma access_flagged (h : a.flagged = true → m.mdiocIrq = true) :
    Flagged (access (.read addr) m a).1 (access (.read addr) m a).2 := by
  cases a with
  | ready =>
    simp only [access]
    split
    · exact nofun
    · exact h rfl
  | clear => exact nofun
  | cleared =>
    simp only [access]
    split
    · exact nofun
    · exact nofun
  | wdata => exact nofun
  | initiate => exact nofun
  | completed num =>
    simp only [access]
    split
    · next hi => exact fun _ => hi
    · exact nofun
  | fetch num => exact h rfl

/-- A call of the main context waits to see the completion flag cleared.  Only the handler
clears it, and it is set again when the handler returns. -/
structure Spins (c : PhyCall) (s : PhyBus) : Prop where
  main : s.main = some (c, .cleared)
  idle : s.irq = none → s.mdio.mdiocIrq = true
  handler : ∀ stack a, s.irq = some (stack, a) → a.flagged = true → s.mdio.mdiocIrq = true

variable {c : PhyCall}

lemma Spins.irqStep {stack : BitVec 16} (h : Spins c s) (hi : s.irq = some (stack, a)) :
    Spins c (irqStep s stack a) := by
  have hf := @access_flagged s.mdio isrAddr a (h.handler stack a hi)
  rw [Ethernet.irqStep]
  rcases hacc : access (.read isrAddr) s.mdio a with ⟨m, a' | r⟩
  · rw [hacc] at hf
    refine ⟨h.main, nofun, ?_⟩
    rintro _ _ ⟨⟩
    exact hf
  · rw [hacc] at hf
    exact ⟨h.main, fun _ => hf, nofun⟩

lemma Spins.complete (h : Spins c s) (value : BitVec 16) :
    Spins c { s with mdio := s.mdio.complete value } := by
  have hflag : s.mdio.mdiocIrq = true → (s.mdio.complete value).mdiocIrq = true := by
    intro hi
    rw [Mdio.complete]
    split
    · exact hi
    · rfl
  exact ⟨h.main, fun hi => hflag (h.idle hi), fun stack a hi ha => hflag (h.handler stack a hi ha)⟩

lemma Spins.step (h : Spins c s) (e : BusEvent) : Spins c (busStep s e) := by
  have hmain := h.main
  cases e with
  | call c' =>
    rw [busStep]
    split
    · next hm => rw [hmain] at hm; cases hm
    · exact h
  | step =>
    rw [busStep]
    split
    · next hi => exact h.irqStep hi
    · next hi hm =>
      -- the poll sees the flag set
      rw [hmain] at hm
      cases hm
      have hset := h.idle hi
      simp only [Ethernet.mainStep, access, hset, if_true]
      exact ⟨rfl, fun _ => hset, h.handler⟩
    · exact h
  | irq stack =>
    rw [busStep]
    split
    · next hi =>
      refine ⟨hmain, nofun, ?_⟩
      rintro _ _ ⟨⟩ -
      exact h.idle hi
    · exact h
  | complete value => exact h.complete value

/-- An interrupt between the clearing of the completion flag and the poll that waits for it
leaves the flag set.  From then on the interrupted call spins, in every run. -/
theorem cleared_spins (hmain : s.main = some (c, .cleared)) (hirq : s.irq = none)
    (hflag : s.mdio.mdiocIrq = true) (evs : List BusEvent) :
    (run busStep s evs).main = some (c, .cleared) := by
  have hs : Spins c s := ⟨hmain, fun _ => hflag, fun _ _ hi => nomatch hirq.symm.trans hi⟩
  exact (@run_invariant _ _ busStep (Spins c) (fun _ e h => h.step e) _ hs evs).main

/-- The handler runs in front of the poll of `write_phyReg`. -/
example :
    let s := run busStep { mdio := mdioIdle }
      (([.call (.write 0 0x1000), .step, .step, .irq 0] : List BusEvent) ++
        List.replicate 4 .step ++ [.complete 0x10, .step, .step])
    s.main = some (.write 0 0x1000, .cleared) ∧ s.irq = none ∧ s.mdio.mdiocIrq = true := by
  decide

end EvtDrivenOs.Ethernet
